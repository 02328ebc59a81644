import Mathlib.Algebra.Order.Floor.Ring
import Mathlib.Data.Rat.Floor
import NeonDiff.Lib.JsText

/-! # The context budget of a review prompt

A prompt that is over the provider's window is skipped, or cut into chunks of whole files. Sizes are estimated from
the prompt's length; `fl` rounds the result of each operation on numbers.
-/

namespace NeonDiff.ContextBudget

open NeonDiff.Lib.JsText

inductive OverflowPolicy where
  | skip | chunk
  deriving DecidableEq, Repr

structure ContextBudgetConfig where
  enabled : Bool := true
  overflow : OverflowPolicy := .skip
  reservedOutputTokens : Int := 4096
  charsPerToken : ℚ := 4
  providerFudgeFactor : ℚ := 115 / 100
  maxChunks : Int := 8
  deriving DecidableEq

/-- `Partial<ContextBudgetConfig>`. -/
structure PartialConfig where
  enabled : Option Bool := none
  overflow : Option OverflowPolicy := none
  reservedOutputTokens : Option Int := none
  charsPerToken : Option ℚ := none
  providerFudgeFactor : Option ℚ := none
  maxChunks : Option Int := none
  deriving DecidableEq

def defaultContextBudgetConfig : ContextBudgetConfig := {}

def normalizeContextBudgetConfig (config : Option PartialConfig) : ContextBudgetConfig :=
  let given := config.getD {}
  { enabled := given.enabled.getD defaultContextBudgetConfig.enabled
    overflow := given.overflow.getD defaultContextBudgetConfig.overflow
    reservedOutputTokens := given.reservedOutputTokens.getD defaultContextBudgetConfig.reservedOutputTokens
    charsPerToken := given.charsPerToken.getD defaultContextBudgetConfig.charsPerToken
    providerFudgeFactor := given.providerFudgeFactor.getD defaultContextBudgetConfig.providerFudgeFactor
    maxChunks := given.maxChunks.getD defaultContextBudgetConfig.maxChunks }

/-- `estimateContextTokens`. -/
def estimateContextTokens (fl : ℚ → ℚ) (input : String) (config : ContextBudgetConfig) : Int :=
  let charsPerToken := max 1 config.charsPerToken
  let providerFudgeFactor := max (1 / 100) config.providerFudgeFactor
  ⌈fl (fl (length input.toList / charsPerToken) * providerFudgeFactor)⌉

structure ContextBudgetChunk (File : Type) where
  index : Nat
  files : List File
  filenames : List String
  estimatedTokens : Int
  deriving DecidableEq

inductive SkipReason where
  | contextBudgetOverflow | contextBudgetNoAvailableInputTokens | contextBudgetSingleFileOverflow
  | contextBudgetChunkCountExceeded
  deriving DecidableEq, Repr

structure PlanBase where
  estimatedTokens : Int
  reservedOutputTokens : Int
  overflow : OverflowPolicy
  deriving DecidableEq

inductive ContextBudgetPlan (File : Type) where
  | disabled (base : PlanBase)
  | unknownWindow (base : PlanBase)
  | withinBudget (base : PlanBase) (contextWindowTokens budgetTokens : Int)
  | skip (base : PlanBase) (contextWindowTokens budgetTokens : Int) (reason : SkipReason)
  | chunk (base : PlanBase) (contextWindowTokens budgetTokens : Int) (chunks : List (ContextBudgetChunk File))
  deriving DecidableEq

structure PlanInput (File : Type) where
  prompt : String
  files : List File
  contextWindowTokens : Option Int := none
  config : Option PartialConfig := none
  buildPrompt : List File → String

section

variable {File : Type} (fl : ℚ → ℚ) (filename : File → String) (buildPrompt : List File → String)
  (config : ContextBudgetConfig)

def promptTokens (files : List File) : Int := estimateContextTokens fl (buildPrompt files) config

def toChunk (index : Nat) (files : List File) : ContextBudgetChunk File where
  index := index
  files := files
  filenames := files.map filename
  estimatedTokens := promptTokens fl buildPrompt config files

def chunkLoop (budgetTokens : Int) (chunks : List (ContextBudgetChunk File)) (current : List File) :
    List File → Except SkipReason (List (ContextBudgetChunk File))
  | [] =>
    let chunks :=
      if 0 < current.length then chunks ++ [toChunk fl filename buildPrompt config (chunks.length + 1) current]
      else chunks
    if config.maxChunks < chunks.length then .error .contextBudgetChunkCountExceeded else .ok chunks
  | file :: rest =>
    let singleEstimate := promptTokens fl buildPrompt config [file]
    if budgetTokens < singleEstimate then .error .contextBudgetSingleFileOverflow
    else
      let candidate := current ++ [file]
      let candidateEstimate :=
        if current.length = 0 then singleEstimate else promptTokens fl buildPrompt config candidate
      if 0 < current.length ∧ budgetTokens < candidateEstimate then
        let chunks := chunks ++ [toChunk fl filename buildPrompt config (chunks.length + 1) current]
        if config.maxChunks ≤ chunks.length then .error .contextBudgetChunkCountExceeded
        else chunkLoop budgetTokens chunks [file] rest
      else chunkLoop budgetTokens chunks candidate rest

def buildFileBoundaryChunks (budgetTokens : Int) (files : List File) :
    Except SkipReason (List (ContextBudgetChunk File)) :=
  if files.length = 0 then .error .contextBudgetOverflow
  else chunkLoop fl filename buildPrompt config budgetTokens [] [] files

def planContextBudget (input : PlanInput File) : ContextBudgetPlan File :=
  let config := normalizeContextBudgetConfig input.config
  let estimatedTokens := estimateContextTokens fl input.prompt config
  let base : PlanBase := ⟨estimatedTokens, config.reservedOutputTokens, config.overflow⟩
  if !config.enabled then .disabled base
  else match input.contextWindowTokens.filter (· ≠ 0) with
    | none => .unknownWindow base
    | some contextWindowTokens =>
      let budgetTokens := contextWindowTokens - config.reservedOutputTokens
      if budgetTokens < 1 then .skip base contextWindowTokens budgetTokens .contextBudgetNoAvailableInputTokens
      else if estimatedTokens ≤ budgetTokens then .withinBudget base contextWindowTokens budgetTokens
      else if config.overflow = .skip then .skip base contextWindowTokens budgetTokens .contextBudgetOverflow
      else match buildFileBoundaryChunks fl filename input.buildPrompt config budgetTokens input.files with
        | .error reason => .skip base contextWindowTokens budgetTokens reason
        | .ok chunks => .chunk { base with overflow := .chunk } contextWindowTokens budgetTokens chunks

end

end NeonDiff.ContextBudget
