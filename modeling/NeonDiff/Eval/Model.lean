import Mathlib.Data.List.Dedup
import Mathlib.Data.Rat.Defs
import NeonDiff.Lib.Matching
import NeonDiff.Lib.Ranking
import NeonDiff.Review.Finding

/-! # The offline evaluation

The findings of the bot are matched with the expected labels of a scenario, the scorecard counts what was matched, and
the comparison lists every finding and label.
-/

namespace NeonDiff.Eval

open NeonDiff.Lib NeonDiff.Review

inductive EvalSuiteName where
  | canary_shadow | historical_pr_replay | seeded_defect_recall | safety_redaction | duplicate_suppression
  deriving DecidableEq, Repr

inductive EvalLabelSource where
  | coderabbit | human | ci_failure | merged_fix | seeded_defect
  deriving DecidableEq, Repr

/-- `"bot" | EvalLabelSource`. -/
inductive FindingSource where
  | bot
  | label (source : EvalLabelSource)
  deriving DecidableEq, Repr

structure NormalizedEvalFinding where
  id : String
  source : FindingSource
  severity : Severity
  path : String
  line : Int
  title : String
  body : String
  confidence : ℚ
  deriving DecidableEq

inductive MatchKind where
  | exact_line | nearby_line | semantic
  deriving DecidableEq, Repr

namespace MatchKind

def text : MatchKind → String
  | exact_line => "exact_line"
  | nearby_line => "nearby_line"
  | semantic => "semantic"

/-- `matchRank`. -/
def rank : MatchKind → Nat
  | exact_line => 0
  | nearby_line => 1
  | semantic => 2

end MatchKind

structure EvalMatch where
  botFindingId : String
  labelId : String
  kind : MatchKind
  deriving DecidableEq

/-! ## Matching -/

section
variable (fns : TextFunctions)

def tokenize (text : String) : List (List Char) :=
  ((Words.runs Words.isLowerAlnum (fns.toLowerCase text).toList).filter fun token => 4 ≤ token.length).dedup

/-- A quotient of two counts, which the bounds it is compared with tell apart as they do the rounded one. -/
def tokenOverlap (a b : NormalizedEvalFinding) : ℚ :=
  let aTokens := tokenize fns (a.title ++ " " ++ a.body)
  let bTokens := tokenize fns (b.title ++ " " ++ b.body)
  if aTokens.length = 0 ∨ bTokens.length = 0 then 0
  else (aTokens.filter fun token => token ∈ bTokens).length / min aTokens.length bTokens.length

def lineDistance (botFinding label : NormalizedEvalFinding) : Nat := (botFinding.line - label.line).natAbs

def classifyMatch (botFinding label : NormalizedEvalFinding) : Option MatchKind :=
  if botFinding.severity ≠ label.severity then none
  else
    let overlap := tokenOverlap fns botFinding label
    if botFinding.line = label.line ∧ overlap ≥ 1 / 4 then some .exact_line
    else if lineDistance botFinding label ≤ 3 ∧ overlap ≥ 7 / 20 then some .nearby_line
    else if overlap ≥ 11 / 20 then some .semantic
    else none

structure Candidate where
  finding : NormalizedEvalFinding
  label : NormalizedEvalFinding
  kind : MatchKind

def Candidate.toMatch (candidate : Candidate) : EvalMatch :=
  ⟨candidate.finding.id, candidate.label.id, candidate.kind⟩

def candidates (botFindings labels : List NormalizedEvalFinding) : List Candidate :=
  labels.flatMap fun label =>
    (botFindings.filter fun finding => finding.path = label.path).filterMap fun finding =>
      (classifyMatch fns finding label).map fun kind => ⟨finding, label, kind⟩

def compareCandidates : Candidate → Candidate → Ordering :=
  compareLex (compareOn fun c => c.kind.rank) <|
  compareLex (compareOn fun c => lineDistance c.finding c.label) <|
  compareLex (fun a b => compare b.finding.confidence a.finding.confidence) fun a b =>
    fns.localeCompare a.label.id b.label.id

structure Picked where
  usedBotIds : List String
  usedLabelIds : List String
  matched : List EvalMatch

/-- The loop over the ranked candidates. -/
def pick : Picked → List Candidate → Picked
  | picked, [] => picked
  | picked, candidate :: rest =>
    if candidate.finding.id ∈ picked.usedBotIds ∨ candidate.label.id ∈ picked.usedLabelIds then pick picked rest
    else
      pick
        { usedBotIds := picked.usedBotIds ++ [candidate.finding.id]
          usedLabelIds := picked.usedLabelIds ++ [candidate.label.id]
          matched := picked.matched ++ [candidate.toMatch] }
        rest

def matchFindings (botFindings labels : List NormalizedEvalFinding) : List EvalMatch :=
  let picked := pick ⟨[], [], []⟩ ((candidates fns botFindings labels).insertionSort (Ranking.before (compareCandidates fns)))
  picked.matched.filter fun m => m.labelId ∈ picked.usedLabelIds

end

/-! ## The scorecard -/

structure EvalThresholds where
  minPrecision : ℚ
  minRecall : ℚ
  minSeededRecall : ℚ
  maxSecretFindings : Int
  maxDuplicateFindings : Int

structure ScorecardInput where
  suite : EvalSuiteName
  negativeControl : Option Bool
  botFindings : List NormalizedEvalFinding
  labels : List NormalizedEvalFinding
  matched : List EvalMatch
  duplicateCount : Nat
  secretCount : Nat
  droppedFromSchema : Nat
  inlinePreviewCount : Nat
  ciMetadataCount : Nat
  mergedFixCount : Nat
  thresholds : EvalThresholds

structure EvalCounts where
  botFindings : Int
  labels : Int
  truePositive : Int
  falsePositive : Int
  falseNegative : Int
  exactLineMatches : Nat
  nearbyLineMatches : Nat
  semanticMatches : Nat
  droppedFromSchema : Nat
  secretFindings : Nat
  duplicateFindings : Nat
  inlinePreviews : Nat
  ciMetadata : Nat
  mergedFixes : Nat
  p0p1Labels : Nat
  negativeControlScenarios : Nat

structure EvalMetrics where
  precision : ℚ
  labelRecall : ℚ
  seededRecall : ℚ

structure EvalGate where
  name : String
  ok : Bool

structure EvalScorecard where
  counts : EvalCounts
  metrics : EvalMetrics
  falsePositiveSeverities : Severity → Nat
  gates : List EvalGate

/-- The ids of `new Set(matches.map(...))`. -/
def matchedBotIds (matched : List EvalMatch) : List String := (matched.map EvalMatch.botFindingId).dedup

def matchedLabelIds (matched : List EvalMatch) : List String := (matched.map EvalMatch.labelId).dedup

def countFindingSeverities (findings : List NormalizedEvalFinding) (severity : Severity) : Nat :=
  findings.countP fun finding => finding.severity = severity

def isSeeded (label : NormalizedEvalFinding) : Bool := label.source = .label .seeded_defect

def evaluateSuiteRequirements (suite : EvalSuiteName) (labels : List NormalizedEvalFinding) (thresholds : EvalThresholds)
    (ciMetadataCount mergedFixCount : Nat) : Bool :=
  match suite with
  | .seeded_defect_recall => 0 < (labels.filter isSeeded).length
  | .historical_pr_replay =>
    0 < (labels.filter fun label => !isSeeded label).length && 0 < ciMetadataCount + mergedFixCount
  | .safety_redaction => thresholds.maxSecretFindings = 0
  | .duplicate_suppression => thresholds.maxDuplicateFindings = 0
  | .canary_shadow => true

def buildScorecard (input : ScorecardInput) : EvalScorecard :=
  let botIds := matchedBotIds input.matched
  let labelIds := matchedLabelIds input.matched
  let truePositive := botIds.length
  let seededLabels := input.labels.filter isSeeded
  let matchedSeeded := (seededLabels.filter fun label => label.id ∈ labelIds).length
  let precision : ℚ :=
    if input.botFindings.length = 0 then (if input.labels.length = 0 then 1 else 0)
    else truePositive / input.botFindings.length
  let labelRecall : ℚ := if input.labels.length = 0 then 1 else truePositive / input.labels.length
  let seededRecall : ℚ := if seededLabels.length = 0 then 1 else matchedSeeded / seededLabels.length
  { counts :=
      { botFindings := input.botFindings.length
        labels := input.labels.length
        truePositive := truePositive
        falsePositive := input.botFindings.length - truePositive
        falseNegative := input.labels.length - labelIds.length
        exactLineMatches := (input.matched.filter fun m => m.kind = .exact_line).length
        nearbyLineMatches := (input.matched.filter fun m => m.kind = .nearby_line).length
        semanticMatches := (input.matched.filter fun m => m.kind = .semantic).length
        droppedFromSchema := input.droppedFromSchema
        secretFindings := input.secretCount
        duplicateFindings := input.duplicateCount
        inlinePreviews := input.inlinePreviewCount
        ciMetadata := input.ciMetadataCount
        mergedFixes := input.mergedFixCount
        p0p1Labels := (input.labels.filter fun label => label.severity = .P0 || label.severity = .P1).length
        negativeControlScenarios :=
          if input.negativeControl = some true ∧ input.botFindings.length = 0 then 1 else 0 }
    metrics := { precision := precision, labelRecall := labelRecall, seededRecall := seededRecall }
    falsePositiveSeverities :=
      countFindingSeverities (input.botFindings.filter fun finding => finding.id ∉ botIds)
    gates :=
      [ ⟨"precision", precision ≥ input.thresholds.minPrecision⟩,
        ⟨"recall", labelRecall ≥ input.thresholds.minRecall⟩,
        ⟨"seeded_recall", seededRecall ≥ input.thresholds.minSeededRecall⟩,
        ⟨"secret_redaction", input.secretCount ≤ input.thresholds.maxSecretFindings⟩,
        ⟨"schema_valid", input.droppedFromSchema = 0⟩,
        ⟨"duplicate_suppression", input.duplicateCount ≤ input.thresholds.maxDuplicateFindings⟩,
        ⟨"suite_requirements",
          evaluateSuiteRequirements input.suite input.labels input.thresholds input.ciMetadataCount
            input.mergedFixCount⟩ ] }

/-! ## The comparison -/

/-- `new Map(items.map((item) => [item.id, item])).get(id)`: the last item with the id. -/
def byId (items : List NormalizedEvalFinding) (id : String) : Option NormalizedEvalFinding :=
  items.reverse.find? fun item => item.id = id

inductive ComparisonRow where
  | true_positive (kind : MatchKind) (bot label : NormalizedEvalFinding)
  | false_positive (bot : NormalizedEvalFinding)
  | false_negative (label : NormalizedEvalFinding)

namespace ComparisonRow

def bot? : ComparisonRow → Option NormalizedEvalFinding
  | true_positive _ bot _ => some bot
  | false_positive bot => some bot
  | false_negative _ => none

def label? : ComparisonRow → Option NormalizedEvalFinding
  | true_positive _ _ label => some label
  | false_positive _ => none
  | false_negative label => some label

def cells : ComparisonRow → List String
  | true_positive kind bot label =>
    ["true_positive", kind.text, bot.id, label.id, bot.path, toString bot.line, toString label.line, bot.severity.text,
      bot.title]
  | false_positive bot =>
    ["false_positive", "", bot.id, "", bot.path, toString bot.line, "", bot.severity.text, bot.title]
  | false_negative label =>
    ["false_negative", "", "", label.id, label.path, "", toString label.line, label.severity.text, label.title]

end ComparisonRow

def matchRow (botFindings labels : List NormalizedEvalFinding) (m : EvalMatch) : Option ComparisonRow :=
  match byId botFindings m.botFindingId, byId labels m.labelId with
  | some bot, some label => some (.true_positive m.kind bot label)
  | _, _ => none

def comparisonRows (botFindings labels : List NormalizedEvalFinding) (matched : List EvalMatch) : List ComparisonRow :=
  matched.filterMap (matchRow botFindings labels) ++
    (botFindings.filter fun finding => finding.id ∉ matchedBotIds matched).map .false_positive ++
    (labels.filter fun label => label.id ∉ matchedLabelIds matched).map .false_negative

def csvCell (value : String) : String :=
  if value.toList.any fun c => c = '"' || c = ',' || c = '\n' then "\"" ++ value.replace "\"" "\"\"" ++ "\"" else value

def comparisonHead : List String :=
  ["kind", "match_type", "bot_id", "label_id", "path", "bot_line", "label_line", "severity", "title"]

def buildComparisonCsv (botFindings labels : List NormalizedEvalFinding) (matched : List EvalMatch) : String :=
  let rows := (comparisonRows botFindings labels matched).map fun row => ",".intercalate (row.cells.map csvCell)
  "\n".intercalate (",".intercalate comparisonHead :: rows) ++ "\n"

end NeonDiff.Eval
