import Mathlib
import WebsiteInfrastructure.Library.CrashLogic

/-!
# The host of the ingress-guard transactions

The durable records (both journals and the receipts), the owned nftables table and the managed part
of the machine, with the operations that the transaction scripts share.
-/

namespace GuardTransaction

open Crash

/-! ## Records -/

/-- A random UUID. -/
abbrev Attempt := ℕ

inductive Mode
  | offline
  | retrofit
  deriving DecidableEq

inductive Result
  | pass
  | rollbackVerified
  | recoveryRequired
  | pendingReboot
  deriving DecidableEq

/-- The transaction in its mode, or a load of the table. -/
inductive Owner
  | transaction (mode : Mode)
  | load
  deriving DecidableEq

/-- A receipt is named by its owner, its attempt and its result. -/
structure ReceiptName where
  owner : Owner
  attempt : Attempt
  result : Result
  deriving DecidableEq

/-- Source revision, manifest and custody receipt of a reviewed bundle. -/
structure Bundle where
  sourceRevision : String
  manifestSha256 : String
  custodyReceiptSha256 : String
  deriving DecidableEq

/-- The fields of a receipt; its digest in a journal stands for the receipt itself. -/
structure Document where
  schema : String
  name : ReceiptName
  bundle : Option Bundle
  boot : Option ℕ
  states : List String
  deriving DecidableEq

/-- The two names `destination` and `destination.tmp` of an immutable document. The temporary
file of `temporary none` is not completely written; in `linked` both names are one inode, with
link count 2. -/
inductive Slot
  | absent
  | temporary (content : Option Document)
  | linked (content : Document)
  | published (content : Document)
  | collided (content : Document)
  deriving DecidableEq

/-- `[[ -e destination ]]` -/
def Slot.exists : Slot → Bool
  | .absent | .temporary _ => false
  | .linked _ | .published _ | .collided _ => true

/-- What `ig_assert_root_file` lets pass: a file with link count 1. -/
def Slot.rootFile? : Slot → Option Document
  | .published d | .collided d => some d
  | _ => none

inductive Phase
  | prepared
  | artifactsInstalled
  | guardStartIntent
  | guardActive
  | dropinInstalled
  | kubeletRestartIntent
  | awaitingRebootIntent
  | awaitingReboot
  | commitIntent
  | committed
  | rollbackIntent
  | rolledBack
  | recoveryRequired
  deriving DecidableEq

inductive LoadPhase
  | prepared
  | applyIntent
  | applied
  | commitIntent
  | committed
  | rollbackIntent
  | rolledBack
  | recoveryRequired
  deriving DecidableEq

/-! ## The machine -/

inductive Artifact
  | contract
  | contractValidator
  | modelValidator
  | transactionLib
  | loader
  | verify
  | recover
  | retrofit
  | unit
  | dropin
  deriving DecidableEq

inductive Directory
  | etc
  | vendor
  | library
  | dropin
  deriving DecidableEq

/-- The managed directory that holds a file; the others lie in directories of the system. -/
def Artifact.directory? : Artifact → Option Directory
  | .contract => some .etc
  | .contractValidator | .modelValidator | .transactionLib => some .library
  | .dropin => some .dropin
  | .loader | .verify | .recover | .retrofit | .unit => none

def Directory.parent? : Directory → Option Directory
  | .library => some .vendor
  | _ => none

inductive FileState
  | absent
  | exact
  | other
  deriving DecidableEq

/-- A prestate that a journal records. -/
inductive Existence
  | absent
  | exact
  deriving DecidableEq

/-- Files, directories and units; systemd reads unit files again at every `daemon-reload`, which
precedes each question about them. -/
structure Machine where
  file : Artifact → FileState
  directory : Directory → Bool
  enabled : Bool
  guard : Bool
  kubelet : Bool
  /-- A start job for the guard is queued. -/
  queued : Bool

/-- The owned table; who created it is for the reader, no program asks. -/
inductive Table
  | absent
  | exact (creator : Option Attempt)
  | other
  deriving DecidableEq

def Table.isExact : Table → Bool
  | .exact _ => true
  | _ => false

/-- `absent` and `healthy` in a journal. -/
inductive TablePrestate
  | absent
  | healthy
  deriving DecidableEq

@[ext] structure Prestate where
  table : TablePrestate
  kubelet : Bool
  enabled : Bool
  file : Artifact → Existence
  directory : Directory → Existence

structure Journal where
  mode : Mode
  phase : Phase
  attempt : Attempt
  bundle : Bundle
  /-- The cluster health to be found again, `none` where it is not applicable. -/
  clusterHealthScope : Option String
  prestate : Prestate
  receipt : Option Document

structure LoadJournal where
  phase : LoadPhase
  prestate : TablePrestate
  attempt : Attempt
  boot : ℕ
  receipt : Option Document
  deriving DecidableEq

structure Host where
  journal : Option Journal
  loadJournal : Option LoadJournal
  receipts : ReceiptName → Slot
  table : Table
  machine : Machine
  /-- No UUID from here on has been drawn. -/
  uuid : Attempt
  boot : ℕ

def Host.setReceipt (s : Host) (name : ReceiptName) (slot : Slot) : Host :=
  { s with receipts := Function.update s.receipts name slot }

def Host.setFile (s : Host) (a : Artifact) (state : FileState) : Host :=
  { s with machine := { s.machine with file := Function.update s.machine.file a state } }

def Host.setDirectory (s : Host) (d : Directory) (present : Bool) : Host :=
  { s with machine := { s.machine with directory := Function.update s.machine.directory d present } }

/-! ## Immutable documents -/

variable {ε : Type}

/-- Write the temporary file, link it, unlink the temporary name. -/
def createDocument (name : ReceiptName) (payload : Document) (e : ε) : Prog Host ε Unit := do
  .modify (·.setReceipt name (.temporary none))
  .orExit e
  .modify (·.setReceipt name (.temporary (some payload)))
  .orExit e
  .modify (·.setReceipt name (.linked payload))
  .orExit e
  .modify (·.setReceipt name (.published payload))
  .orExit e

/-- `ig_immutable_document` -/
def immutableDocument (name : ReceiptName) (payload : Document) (e : ε) : Prog Host ε Unit := do
  .orExit e
  let s ← .get
  match s.receipts name with
  | .linked observed =>
    .modify (·.setReceipt name (.published observed))
    .orExit e
    .require (observed = payload) e
  | .temporary _ =>
    .modify (·.setReceipt name .absent)
    .orExit e
    createDocument name payload e
  | .collided _ => .exit e
  | .published observed => .require (observed = payload) e
  | .absent => createDocument name payload e

/-- `ig_discard_unpublished_document_temp`, where there is one -/
def discardUnpublishedTemp (name : ReceiptName) (e : ε) : Prog Host ε Unit := do
  .orExit e
  let s ← .get
  match s.receipts name with
  | .temporary _ =>
    .modify (·.setReceipt name .absent)
    .orExit e
  | .absent => .ret ()
  | _ => .exit e

/-! ## The transaction's records -/

def Result.text : Result → String
  | .pass => "pass"
  | .rollbackVerified => "rollback-verified"
  | .recoveryRequired => "recovery-required"
  | .pendingReboot => "pending-reboot"

/-- `ig_receipt_path` -/
def receiptPath (j : Journal) (result : Result) : ReceiptName :=
  ⟨.transaction j.mode, j.attempt, result⟩

/-- `ig_journal_receipt_path` -/
def journalReceiptPath (j : Journal) : Option ReceiptName :=
  match j.phase with
  | .committed => some (receiptPath j .pass)
  | .rolledBack => some (receiptPath j .rollbackVerified)
  | .awaitingReboot => some (receiptPath j .pendingReboot)
  | .recoveryRequired => some (receiptPath j .recoveryRequired)
  | _ => none

/-- The receipt of a result: guard state, persistence, kubelet dependency and rollback are given. -/
def receiptDocument (j : Journal) (result : Result)
    (guardState persistence dependency rollback : String) : Document where
  schema := "ingress-guard-receipt-v2"
  name := receiptPath j result
  bundle := some j.bundle
  boot := none
  states :=
    (if result = .recoveryRequired then
      ["verified", "verified", "unverified", "unverified", "unverified"]
    else
      ["verified", "verified", "verified", "verified-or-not-applicable", "validated-root-custody"]) ++
    [guardState, persistence, dependency,
      match j.clusterHealthScope with
      | none => "not-applicable"
      | some _ => if result = .recoveryRequired then "unverified" else "verified",
      rollback]

/-- `ig_write_receipt`; what it returns becomes `IG_RECEIPT_SHA256`. -/
def writeReceipt (j : Journal) (result : Result)
    (guardState persistence dependency rollback : String) (e : ε) : Prog Host ε Document := do
  let payload := receiptDocument j result guardState persistence dependency rollback
  immutableDocument (receiptPath j result) payload e
  .orExit e
  return payload

/-- `ig_journal_write`: the journal is replaced in one step. -/
def journalWrite (j : Journal) (e : ε) : Prog Host ε Unit := do
  .orExit e
  .modify fun s => { s with journal := some j }
  .orExit e

/-- Whether the receipt that a closed journal names is the one it records. -/
def closedReceipt (s : Host) (j : Journal) : Bool :=
  match journalReceiptPath j with
  | some name => (s.receipts name).rootFile?.isSome && (s.receipts name).rootFile? = j.receipt
  | none => false

/-! ## The loader's records -/

/-- `ig_load_receipt_path` -/
def loadReceiptPath (attempt : Attempt) (result : Result) : ReceiptName := ⟨.load, attempt, result⟩

def loadReceiptDocument (attempt : Attempt) (boot : ℕ) (result : Result)
    (tableState rollback : String) : Document where
  schema := "ingress-guard-load-receipt-v2"
  name := loadReceiptPath attempt result
  bundle := none
  boot := some boot
  states := [tableState, rollback, "not-recorded"]

/-- `ig_write_load_receipt` -/
def writeLoadReceipt (attempt : Attempt) (boot : ℕ) (result : Result) (tableState rollback : String)
    (e : ε) : Prog Host ε Document := do
  let payload := loadReceiptDocument attempt boot result tableState rollback
  immutableDocument (loadReceiptPath attempt result) payload e
  .orExit e
  return payload

/-- `ig_write_load_journal_record` -/
def writeLoadJournalRecord (l : LoadJournal) (e : ε) : Prog Host ε Unit := do
  .orExit e
  .modify fun s => { s with loadJournal := some l }
  .orExit e

/-- `ig_verify_closed_load_receipt` -/
def verifyClosedLoadReceipt (l : LoadJournal) (e : ε) : Prog Host ε Unit := do
  let verify := fun result tableState rollback => do
    let s ← .get
    .require (s.receipts (loadReceiptPath l.attempt result)).rootFile?.isSome e
    let observed ← writeLoadReceipt l.attempt l.boot result tableState rollback e
    .require (some observed = l.receipt) e
  match l.phase with
  | .committed => verify .pass "verified" "not-needed"
  | .rolledBack => verify .rollbackVerified "absent" "verified"
  | .recoveryRequired => verify .recoveryRequired "unverified" "required"
  | _ => .exit e

/-! ## The table -/

/-- `ig_verify_absent_capture` -/
def verifyAbsentCapture : Prog Host ε Bool := do
  let ok ← .succeeds
  let s ← .get
  return ok && s.table = .absent

/-- `ig_verify_live_capture` -/
def verifyLiveCapture : Prog Host ε Bool := do
  let ok ← .succeeds
  let s ← .get
  return ok && s.table.isExact

/-- A change of the ruleset, made as a whole; it may be made although the command is reported to
have failed. -/
def nft (f : Host → Host) : Prog Host ε Bool := do
  if ← .succeeds then
    .modify f
    return true
  else
    if ← .succeeds then .modify f
    return false

/-- `ig_delete_owned_table_and_prove_absent` -/
def deleteOwnedTableAndProveAbsent : Prog Host ε Bool := do
  let s ← .get
  if s.table = .absent then return false
  else
    let deleted ← nft fun s => { s with table := .absent }
    if !deleted then return false
    else
      let captured ← .succeeds
      if !captured then return false
      else verifyAbsentCapture

end GuardTransaction
