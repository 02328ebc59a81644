import Mathlib.Data.List.Basic
import NeonDiff.Lib.Transition

/-! # The review policy in a checkout

A run of the reviewer reads `.zcode/config.json` of its checkout. For as long as runs of one checkout are going on, the
review policy stands there in place of what the checkout had.
-/

namespace NeonDiff.ZCode

open NeonDiff.Lib

abbrev Mode := BitVec 12

structure StoredFile (β : Type) where
  contents : β
  mode : Mode
  deriving DecidableEq

/-- A path that is written atomically, and the temporary file beside it. -/
structure Slot (β : Type) where
  file : Option (StoredFile β)
  temp : Option (StoredFile β)
  deriving DecidableEq

/-- The `.zcode` directory: `config.json` and the names of the other entries. -/
structure ConfigDir (β : Type) where
  config : Slot β
  others : List String
  deriving DecidableEq

/-- The process that runs the reviewer: its file mode mask, and UTF-8 as it reads and writes it. -/
structure Host (β : Type) where
  umask : Mode
  decode : β → String
  encode : String → β

/-- The steps of a set-up and of an evidence write that may fail. -/
inductive FileOperation where
  | readConfig | makeConfigDir | writePolicy | renamePolicy | makeEvidenceDir | writeEvidence | renameEvidence
  deriving DecidableEq, Repr

structure ActiveZCodeReviewPolicy where
  users : Nat
  hadConfigDir : Bool
  originalConfig : Option (String × Mode)

/-- The process and its checkout, with the ids of the calls whose run goes on. The evidence directories are not under
`.zcode`. -/
structure Process (β : Type) where
  dir : Option (ConfigDir β)
  evidence : String → Slot β
  activePolicy : Option ActiveZCodeReviewPolicy
  running : List Nat

/-- `JSON.stringify(buildZCodeReviewPolicy(), null, 2)` and a line break. -/
def reviewPolicyText : String :=
  "\n".intercalate
    ["\x7b", "  \"permission\": \x7b", "    \"mode\": \"build\",", "    \"allowedTools\": [", "      \"Read\",",
    "      \"Grep\",", "      \"Glob\",", "      \"LS\"", "    ],", "    \"disallowedTools\": [",
    "      \"Bash\",", "      \"Shell\",", "      \"Edit\",", "      \"Write\",", "      \"MultiEdit\",",
    "      \"NotebookEdit\",", "      \"WebFetch\",", "      \"WebSearch\",", "      \"Task\",",
    "      \"Agent\",", "      \"Workflow\",", "      \"SendMessage\"", "    ],",
    "    \"autoApproveHighRisk\": false,", "    \"allowMediumRiskInAuto\": false", "  \x7d,",
    "  \"features\": \x7b", "    \"subagent\": false,", "    \"mcp\": false,", "    \"memory\": false,",
    "    \"skill\": false", "  \x7d,", "  \"memory\": \x7b", "    \"use\": false,", "    \"write\": false,",
    "    \"autoConsolidate\": false", "  \x7d,", "  \"toolConcurrency\": \x7b", "    \"maxConcurrency\": 1",
    "  \x7d", "\x7d", ""]

section
variable {β : Type} (host : Host β)

/-! ## Files -/

def Host.created (mode : Mode) : Mode := mode &&& ~~~host.umask

inductive WriteStep where
  | write | rename
  deriving DecidableEq, Repr

/-- Whether the write went through, and what it left. -/
def writeFileAtomic (failing : Option WriteStep) (text : String) (mode : Mode) (slot : Slot β) : Slot β × Bool :=
  if failing = some .write then ({ slot with temp := none }, false)
  else if failing = some .rename then ({ slot with temp := none }, false)
  else ({ file := some { contents := host.encode text, mode := host.created mode }, temp := none }, true)

def ConfigDir.empty : ConfigDir β := { config := { file := none, temp := none }, others := [] }

/-- `mkdirSync(configDir, { recursive: true })`. -/
def madeDir (dir : Option (ConfigDir β)) : ConfigDir β := dir.getD ConfigDir.empty

/-- `rmdirSync`, which leaves a directory that is not empty in place. -/
def rmdir (dir : ConfigDir β) : Option (ConfigDir β) :=
  if dir.config.file.isNone ∧ dir.config.temp.isNone ∧ dir.others = [] then none else some dir

def policyMode : Mode := 0o600

/-! ## A call -/

namespace FileOperation

def policyWrite : FileOperation → Option WriteStep
  | writePolicy => some .write
  | renamePolicy => some .rename
  | _ => none

def evidenceWrite : FileOperation → Option WriteStep
  | writeEvidence => some .write
  | renameEvidence => some .rename
  | _ => none

end FileOperation

namespace Process

variable (s : Process β)

def configFile : Option (StoredFile β) := s.dir.bind fun dir => dir.config.file

/-- The checks and writes of a call that finds no active policy. -/
def install (failing : Option FileOperation) : Process β × Bool :=
  if s.configFile.isSome ∧ failing = some .readConfig then (s, false)
  else if failing = some .makeConfigDir then (s, false)
  else
    let active : ActiveZCodeReviewPolicy :=
      { users := 1
        hadConfigDir := s.dir.isSome
        originalConfig := s.configFile.map fun file => (host.decode file.contents, file.mode) }
    let dir := madeDir s.dir
    let (slot, ok) := writeFileAtomic host (failing.bind (·.policyWrite)) reviewPolicyText policyMode dir.config
    if ok then ({ s with dir := some { dir with config := slot }, activePolicy := some active }, true)
    else ({ s with dir := some { dir with config := slot } }, false)

/-- A call counts itself among the users of the policy, or installs it. -/
def acquire (failing : Option FileOperation) : Process β × Bool :=
  match s.activePolicy with
  | some active => ({ s with activePolicy := some { active with users := active.users + 1 } }, true)
  | none => s.install host failing

end Process

def restore (current : ActiveZCodeReviewPolicy) (dir : Option (ConfigDir β)) : Option (ConfigDir β) :=
  match current.originalConfig with
  | some (contents, mode) =>
    let made := madeDir dir
    some { made with config := (writeFileAtomic host none contents mode made.config).1 }
  | none =>
    match dir with
    | none => none
    | some dir =>
      let dir := { dir with config := { dir.config with file := none } }
      if current.hadConfigDir then some dir else rmdir dir

namespace Process

variable (s : Process β)

def release : Process β :=
  match s.activePolicy with
  | none => s
  | some current =>
    let users := current.users - 1
    if users > 0 then { s with activePolicy := some { current with users := users } }
    else { s with dir := restore host current s.dir, activePolicy := none }

/-- The evidence of a call, when it keeps one. -/
def recordEvidence (evidenceDir : Option String) (failing : Option FileOperation) : Process β × Bool :=
  match evidenceDir with
  | none => (s, true)
  | some name =>
    if failing = some .makeEvidenceDir then (s, false)
    else
      let (slot, ok) :=
        writeFileAtomic host (failing.bind (·.evidenceWrite)) reviewPolicyText policyMode (s.evidence name)
      ({ s with evidence := Function.update s.evidence name slot }, ok)

/-- A call up to its run, which goes on from here, or to the error that it throws. -/
def withTemporaryZCodeReviewPolicy (id : Nat) (evidenceDir : Option String) (failing : Option FileOperation) :
    Process β :=
  let (s, acquired) := s.acquire host failing
  if acquired then
    let (s, recorded) := s.recordEvidence host evidenceDir failing
    if recorded then { s with running := s.running ++ [id] } else s.release host
  else s

end Process

inductive RunOutcome where
  | returns | throws | resolves | rejects
  deriving DecidableEq, Repr

namespace Process

variable (s : Process β)

/-- The end of a call: after the run, in the handler of its error, or when its promise is settled. -/
def leave : RunOutcome → Process β
  | .returns => s.release host
  | .throws => s.release host
  | .resolves => s.release host
  | .rejects => s.release host

end Process

inductive Event where
  | call (id : Nat) (evidenceDir : Option String) (failing : Option FileOperation)
  | ends (id : Nat) (outcome : RunOutcome)
  deriving DecidableEq, Repr

/-- A call is made while others may be going on, and the runs end in any order. -/
def step (s : Process β) : Event → Option (Process β)
  | .call id evidenceDir failing =>
    if id ∈ s.running then none else some (s.withTemporaryZCodeReviewPolicy host id evidenceDir failing)
  | .ends id outcome =>
    if id ∈ s.running then some ({ s with running := s.running.erase id }.leave host outcome) else none

/-- A checkout before the first call: its `.zcode` directory, with the config file and the other entries. -/
def start (checkout : Option (Option (StoredFile β) × List String)) : Process β where
  dir := checkout.map fun c => { config := { file := c.1, temp := none }, others := c.2 }
  evidence := fun _ => { file := none, temp := none }
  activePolicy := none
  running := []

end

end NeonDiff.ZCode
