import NeonDiff.Lib.Lines
import NeonDiff.Lib.Table

/-! # The shadow identity of queue jobs

Queue jobs have gained two columns with the lower-case repository and head. Opening a store fills them in for the rows
that older processes wrote, and remembers the last row it has seen.
-/

namespace NeonDiff.Shadow

open NeonDiff.Lib NeonDiff.Lib.JsText

/-! ## The identity of a row -/

structure ShadowIdentity where
  repoKey : String
  headShaKey : String
  deriving DecidableEq, Repr

def isNameChar (c : Char) : Bool := c.isAlphanum || c = '_' || c = '.' || c = '-'

/-- `/^[A-Za-z0-9_.-]{1,100}$/`, and neither `.` nor `..`. -/
def isPathName (name : List Char) : Bool :=
  name ≠ ['.'] && name ≠ ['.', '.'] && 1 ≤ name.length && name.length ≤ 100 && name.all isNameChar

/-- `/^[0-9a-f]{40}$/i`. -/
def isHeadSha (headSha : List Char) : Bool :=
  headSha.length = 40 && headSha.all fun c => c.isDigit || ('a' ≤ c && c ≤ 'f') || ('A' ≤ c && c ≤ 'F')

/-- `toLowerCase` of an ASCII text. -/
def lowerCase (text : String) : String := String.ofList (text.toList.map Char.toLower)

/-- Nothing for a column that holds no text. -/
def canonicalReviewQueueIdentity (repo headSha : Option String) : Option ShadowIdentity :=
  match repo, headSha with
  | some repo, some headSha =>
    match split '/' repo.toList with
    | [owner, name] =>
      if isPathName owner && isPathName name && isHeadSha headSha.toList then some ⟨lowerCase repo, lowerCase headSha⟩
      else none
    | _ => none
  | _, _ => none

/-! ## The database -/

section
variable {Columns : Type}

/-- `columns` holds every other column of the job. -/
structure JobRow (Columns : Type) where
  rowid : Nat
  repo : Option String
  headSha : Option String
  repoKey : Option String
  headShaKey : Option String
  columns : Columns
  deriving DecidableEq, Repr

/-- The row of `review_state_migrations` under the name of this migration. -/
structure MigrationMarker where
  completedAt : String
  completedRowid : Option Nat
  deriving DecidableEq, Repr

structure Database (Columns : Type) where
  jobs : Table (@JobRow.rowid Columns)
  marker : Option MigrationMarker

def JobRow.identity (row : JobRow Columns) : Option ShadowIdentity := canonicalReviewQueueIdentity row.repo row.headSha

/-- `repo_key is null or head_sha_key is null`. -/
def JobRow.missing (row : JobRow Columns) : Bool := row.repoKey.isNone || row.headShaKey.isNone

/-- `select coalesce(max(rowid), 0)`. -/
def maxRowid (jobs : Table (@JobRow.rowid Columns)) : Nat := (jobs.rows.map JobRow.rowid).foldr max 0

theorem rowid_le_maxRowid {jobs : Table (@JobRow.rowid Columns)} {row : JobRow Columns} (h : row ∈ jobs.rows) :
    row.rowid ≤ maxRowid jobs := by
  unfold maxRowid
  revert h
  induction jobs.rows with
  | nil => exact fun h => nomatch h
  | cons first rows ih =>
    intro h
    rw [List.map_cons, List.foldr_cons]
    rcases List.mem_cons.mp h with rfl | h
    · exact le_max_left _ _
    · exact le_trans (ih h) (le_max_right _ _)

/-! ## Opening the store -/

/-- The check in front of the transaction. -/
def needsBackfill (db : Database Columns) : Bool :=
  match db.marker.bind MigrationMarker.completedRowid with
  | some completedRowid => db.jobs.rows.any fun row => completedRowid < row.rowid && row.missing
  | none => true

/-- The rows that the transaction reads. -/
def isSelected (db : Database Columns) (row : JobRow Columns) : Bool :=
  row.missing && (db.marker.bind MigrationMarker.completedRowid).all fun lowerBound =>
    lowerBound < row.rowid && row.rowid ≤ maxRowid db.jobs

/-- `set repo_key = coalesce(repo_key, ?), head_sha_key = coalesce(head_sha_key, ?)`. -/
def fillKeys (row : JobRow Columns) : JobRow Columns :=
  match row.identity with
  | some identity => { row with
      repoKey := some (row.repoKey.getD identity.repoKey)
      headShaKey := some (row.headShaKey.getD identity.headShaKey) }
  | none => row

theorem fillKeys_rowid (row : JobRow Columns) : (fillKeys row).rowid = row.rowid := by
  unfold fillKeys
  split <;> rfl

/-- The transaction; `completedAt` is SQLite's clock. -/
def backfill (completedAt : String) (db : Database Columns) : Database Columns where
  jobs := db.jobs.update (fun row => if isSelected db row then fillKeys row else row)
    (fun row => by split <;> simp [fillKeys_rowid])
  marker :=
    let lowerBound := (db.marker.bind MigrationMarker.completedRowid).getD 0
    some ⟨completedAt, some (max lowerBound (max lowerBound (maxRowid db.jobs)))⟩

/-- `ensureReviewQueueJobShadowIdentityColumns`, which every open of the store runs. -/
def openStore (completedAt : String) (db : Database Columns) : Database Columns :=
  if needsBackfill db then backfill completedAt db else db

/-! ## Histories -/

/-- SQLite gives a new row the rowid behind the largest. -/
def insertRow (repo headSha repoKey headShaKey : Option String) (columns : Columns) (db : Database Columns) :
    Database Columns :=
  { db with
    jobs := db.jobs.append ⟨maxRowid db.jobs + 1, repo, headSha, repoKey, headShaKey, columns⟩ (by
      rw [Table.find?_eq_none]
      intro row hrow heq
      have hle := rowid_le_maxRowid hrow
      rw [heq] at hle
      exact absurd hle (Nat.not_succ_le_self _)) }

/-- What happens to a database between two looks at it. Updates of jobs leave their repository, their head and their
keys alone, and only a row that is not the last may be deleted. -/
inductive Step : Database Columns → Database Columns → Prop where
  | oldWriter (db) (repo headSha : Option String) (columns : Columns) :
      Step db (insertRow repo headSha none none columns db)
  | newWriter (db) (repo headSha : String) (columns : Columns) :
      Step db (insertRow (some repo) (some headSha)
        ((canonicalReviewQueueIdentity (some repo) (some headSha)).map ShadowIdentity.repoKey)
        ((canonicalReviewQueueIdentity (some repo) (some headSha)).map ShadowIdentity.headShaKey) columns db)
  | update (db : Database Columns) (columns : JobRow Columns → Columns) :
      Step db { db with jobs := db.jobs.update (fun row => { row with columns := columns row }) fun _ => rfl }
  | delete (db : Database Columns) (rowid : Nat) (h : rowid < maxRowid db.jobs) :
      Step db { db with jobs := db.jobs.delete fun row => row.rowid = rowid }
  | opened (db) (completedAt : String) : Step db (openStore completedAt db)

/-- A database that has seen no open of this version: no row yet, and no boundary. -/
def Initial (db : Database Columns) : Prop :=
  db.jobs.rows = [] ∧ db.marker.bind MigrationMarker.completedRowid = none

inductive Reachable : Database Columns → Prop where
  | initial {db} (h : Initial db) : Reachable db
  | step {db db'} (h : Reachable db) (hstep : Step db db') : Reachable db'

/-! ## The invariant -/

def KeysAgree (row : JobRow Columns) : Prop :=
  ∀ identity, row.identity = some identity →
    (∀ key, row.repoKey = some key → key = identity.repoKey) ∧
      ∀ key, row.headShaKey = some key → key = identity.headShaKey

def Keyed (row : JobRow Columns) : Prop :=
  ∀ identity, row.identity = some identity →
    row.repoKey = some identity.repoKey ∧ row.headShaKey = some identity.headShaKey

/-- Every row up to the boundary is keyed, and the boundary is no further than the last row. -/
structure Fenced (db : Database Columns) : Prop where
  agree : ∀ row ∈ db.jobs.rows, KeysAgree row
  behind : ∀ completedRowid, db.marker.bind MigrationMarker.completedRowid = some completedRowid →
    ∀ row ∈ db.jobs.rows, row.rowid ≤ completedRowid → Keyed row
  boundary : ∀ completedRowid, db.marker.bind MigrationMarker.completedRowid = some completedRowid →
    completedRowid ≤ maxRowid db.jobs

theorem Keyed.agree {row : JobRow Columns} (h : Keyed row) : KeysAgree row := by
  intro identity hidentity
  obtain ⟨hrepo, hhead⟩ := h identity hidentity
  rw [hrepo, hhead]
  exact ⟨fun key hkey => (Option.some.inj hkey).symm, fun key hkey => (Option.some.inj hkey).symm⟩

theorem keyed_of_not_missing {row : JobRow Columns} (h : KeysAgree row) (hmissing : row.missing = false) : Keyed row := by
  intro identity hidentity
  obtain ⟨hrepo, hhead⟩ := h identity hidentity
  unfold JobRow.missing at hmissing
  rw [Bool.or_eq_false_iff, Option.isNone_eq_false_iff, Option.isNone_eq_false_iff, Option.isSome_iff_exists,
    Option.isSome_iff_exists] at hmissing
  obtain ⟨⟨repoKey, hrepoKey⟩, headShaKey, hheadShaKey⟩ := hmissing
  rw [hrepoKey, hheadShaKey, hrepo repoKey hrepoKey, hhead headShaKey hheadShaKey]
  exact ⟨rfl, rfl⟩

theorem keyed_fillKeys {row : JobRow Columns} (h : KeysAgree row) : Keyed (fillKeys row) := by
  intro identity hidentity
  cases hrow : row.identity with
  | none =>
    rw [fillKeys, hrow] at hidentity
    rw [hrow] at hidentity
    cases hidentity
  | some own =>
    obtain ⟨hrepo, hhead⟩ := h own hrow
    have hsame : own = identity := by
      rw [fillKeys, hrow] at hidentity
      exact Option.some.inj (hrow.symm.trans hidentity)
    subst hsame
    rw [fillKeys, hrow]
    constructor
    · cases hkey : row.repoKey with
      | none => rfl
      | some key =>
        obtain rfl := hrepo key hkey
        rfl
    · cases hkey : row.headShaKey with
      | none => rfl
      | some key =>
        obtain rfl := hhead key hkey
        rfl

/-! ## One step -/

theorem mem_insertRow {db : Database Columns} {repo headSha repoKey headShaKey : Option String} {columns : Columns}
    {row : JobRow Columns} (h : row ∈ (insertRow repo headSha repoKey headShaKey columns db).jobs.rows) :
    row ∈ db.jobs.rows ∨ row = ⟨maxRowid db.jobs + 1, repo, headSha, repoKey, headShaKey, columns⟩ := by
  rcases List.mem_append.mp h with h | h
  · exact Or.inl h
  · exact Or.inr (List.mem_singleton.mp h)

theorem foldr_max_append (l : List Nat) (n : Nat) : (l ++ [n]).foldr max 0 = max (l.foldr max 0) n := by
  induction l with
  | nil => simp
  | cons m l ih => rw [List.cons_append, List.foldr_cons, ih, List.foldr_cons, max_assoc]

theorem maxRowid_insertRow (db : Database Columns) (repo headSha repoKey headShaKey : Option String) (columns : Columns) :
    maxRowid (insertRow repo headSha repoKey headShaKey columns db).jobs = maxRowid db.jobs + 1 := by
  have hrows : (insertRow repo headSha repoKey headShaKey columns db).jobs.rows =
      db.jobs.rows ++ [⟨maxRowid db.jobs + 1, repo, headSha, repoKey, headShaKey, columns⟩] := rfl
  unfold maxRowid at hrows ⊢
  rw [hrows, List.map_append, List.map_singleton, foldr_max_append]
  exact max_eq_right (Nat.le_succ _)

theorem Fenced.insertRow {db : Database Columns} (h : Fenced db) {repo headSha repoKey headShaKey : Option String}
    {columns : Columns} (hagree : KeysAgree
      (⟨maxRowid db.jobs + 1, repo, headSha, repoKey, headShaKey, columns⟩ : JobRow Columns)) :
    Fenced (insertRow repo headSha repoKey headShaKey columns db) where
  agree row hrow := by
    rcases mem_insertRow hrow with hold | rfl
    · exact h.agree row hold
    · exact hagree
  behind completedRowid hmarker row hrow hle := by
    rcases mem_insertRow hrow with hold | rfl
    · exact h.behind completedRowid hmarker row hold hle
    · have hboundary := h.boundary completedRowid hmarker
      dsimp only at hle
      omega
  boundary completedRowid hmarker := by
    have hboundary := h.boundary completedRowid hmarker
    rw [maxRowid_insertRow]
    omega

theorem Fenced.update {db : Database Columns} (h : Fenced db) (columns : JobRow Columns → Columns) :
    Fenced { db with jobs := db.jobs.update (fun row => { row with columns := columns row }) fun _ => rfl } where
  agree row hrow := by
    obtain ⟨old, hold, rfl⟩ := List.mem_map.mp hrow
    exact h.agree old hold
  behind completedRowid hmarker row hrow hle := by
    obtain ⟨old, hold, rfl⟩ := List.mem_map.mp hrow
    exact h.behind completedRowid hmarker old hold hle
  boundary completedRowid hmarker := by
    have hmax : maxRowid (db.jobs.update (fun row => { row with columns := columns row }) fun _ => rfl) =
        maxRowid db.jobs := by
      unfold maxRowid Table.update
      rw [List.map_map]
      rfl
    rw [hmax]
    exact h.boundary completedRowid hmarker

theorem maxRowid_mem {jobs : Table (@JobRow.rowid Columns)} (h : jobs.rows ≠ []) :
    ∃ row ∈ jobs.rows, row.rowid = maxRowid jobs := by
  unfold maxRowid
  revert h
  induction jobs.rows with
  | nil => exact fun h => absurd rfl h
  | cons first rows ih =>
    intro _
    rw [List.map_cons, List.foldr_cons]
    by_cases hrows : rows = []
    · subst hrows
      exact ⟨first, List.mem_cons_self, (Nat.max_zero _).symm⟩
    · obtain ⟨row, hrow, hrowid⟩ := ih hrows
      rcases le_total ((rows.map JobRow.rowid).foldr max 0) first.rowid with hle | hle
      · exact ⟨first, List.mem_cons_self, (max_eq_left hle).symm⟩
      · exact ⟨row, List.mem_cons_of_mem _ hrow, hrowid.trans (max_eq_right hle).symm⟩

theorem Fenced.delete {db : Database Columns} (h : Fenced db) {rowid : Nat} (hrowid : rowid < maxRowid db.jobs) :
    Fenced { db with jobs := db.jobs.delete fun row => row.rowid = rowid } where
  agree row hrow := h.agree row (Table.mem_delete.mp hrow).1
  behind completedRowid hmarker row hrow hle := h.behind completedRowid hmarker row (Table.mem_delete.mp hrow).1 hle
  boundary completedRowid hmarker := by
    have hne : db.jobs.rows ≠ [] := by
      intro hnil
      have hzero : maxRowid db.jobs = 0 := by
        unfold maxRowid
        rw [hnil]
        rfl
      omega
    obtain ⟨last, hlast, hlastRowid⟩ := maxRowid_mem hne
    have hkept : last ∈ (db.jobs.delete fun row => row.rowid = rowid).rows := by
      rw [Table.mem_delete, decide_eq_false_iff_not]
      exact ⟨hlast, by omega⟩
    have hle := rowid_le_maxRowid hkept
    have hboundary := h.boundary completedRowid hmarker
    dsimp only
    omega

/-! ## One open -/

theorem mem_backfill {db : Database Columns} {completedAt : String} {row : JobRow Columns}
    (h : row ∈ (backfill completedAt db).jobs.rows) :
    ∃ old ∈ db.jobs.rows, (if isSelected db old then fillKeys old else old) = row :=
  List.mem_map.mp h

theorem keyed_backfill {db : Database Columns} (h : Fenced db) (completedAt : String) {row : JobRow Columns}
    (hrow : row ∈ (backfill completedAt db).jobs.rows) : Keyed row := by
  obtain ⟨old, hold, rfl⟩ := mem_backfill hrow
  have hagree := h.agree old hold
  split
  · exact keyed_fillKeys hagree
  · rename_i hselected
    cases hmissing : old.missing with
    | false => exact keyed_of_not_missing hagree hmissing
    | true =>
      cases hmarker : db.marker.bind MigrationMarker.completedRowid with
      | none =>
        rw [isSelected, hmissing, hmarker] at hselected
        exact absurd rfl hselected
      | some completedRowid =>
        apply h.behind completedRowid hmarker old hold
        by_contra hbehind
        apply hselected
        have hle := rowid_le_maxRowid hold
        rw [isSelected, hmissing, hmarker]
        simp
        omega

theorem keyed_of_not_needsBackfill {db : Database Columns} (h : Fenced db) (hneeds : needsBackfill db = false)
    {row : JobRow Columns} (hrow : row ∈ db.jobs.rows) : Keyed row := by
  unfold needsBackfill at hneeds
  cases hmarker : db.marker.bind MigrationMarker.completedRowid with
  | none =>
    rw [hmarker] at hneeds
    cases hneeds
  | some completedRowid =>
    rw [hmarker] at hneeds
    have hnone := List.any_eq_false.mp hneeds row hrow
    by_cases hle : row.rowid ≤ completedRowid
    · exact h.behind completedRowid hmarker row hrow hle
    · apply keyed_of_not_missing (h.agree row hrow)
      rw [Bool.and_eq_true, decide_eq_true_eq, not_and, Bool.not_eq_true] at hnone
      exact hnone (by omega)

theorem keyed_openStore {db : Database Columns} (h : Fenced db) (completedAt : String) {row : JobRow Columns}
    (hrow : row ∈ (openStore completedAt db).jobs.rows) : Keyed row := by
  unfold openStore at hrow
  split at hrow
  · exact keyed_backfill h completedAt hrow
  · rename_i hneeds
    exact keyed_of_not_needsBackfill h (Bool.eq_false_iff.mpr hneeds) hrow

theorem maxRowid_backfill (completedAt : String) (db : Database Columns) :
    maxRowid (backfill completedAt db).jobs = maxRowid db.jobs := by
  unfold maxRowid backfill Table.update
  rw [List.map_map]
  congr 1
  apply List.map_congr_left
  intro row _
  dsimp only [Function.comp_apply]
  split
  · exact fillKeys_rowid row
  · rfl

theorem Fenced.openStore {db : Database Columns} (h : Fenced db) (completedAt : String) :
    Fenced (openStore completedAt db) := by
  have hkeyed := @keyed_openStore Columns db h completedAt
  unfold Shadow.openStore at hkeyed ⊢
  split at hkeyed
  · rename_i hneeds
    rw [if_pos hneeds]
    refine ⟨fun row hrow => (hkeyed hrow).agree, fun _ _ row hrow _ => hkeyed hrow, fun completedRowid hmarker => ?_⟩
    rw [maxRowid_backfill]
    obtain rfl : max _ (max _ (maxRowid db.jobs)) = completedRowid := Option.some.inj hmarker
    have hlower : (db.marker.bind MigrationMarker.completedRowid).getD 0 ≤ maxRowid db.jobs := by
      cases hold : db.marker.bind MigrationMarker.completedRowid with
      | none => exact Nat.zero_le _
      | some old => exact h.boundary old hold
    exact max_le hlower (max_le hlower le_rfl)
  · rename_i hneeds
    rw [if_neg hneeds]
    exact h

theorem not_needsBackfill_openStore (completedAt : String) (db : Database Columns) :
    needsBackfill (openStore completedAt db) = false := by
  unfold openStore
  split
  · unfold needsBackfill
    have hmarker : (backfill completedAt db).marker.bind MigrationMarker.completedRowid =
        some (max ((db.marker.bind MigrationMarker.completedRowid).getD 0)
          (max ((db.marker.bind MigrationMarker.completedRowid).getD 0) (maxRowid db.jobs))) := rfl
    rw [hmarker]
    apply List.any_eq_false.mpr
    intro row hrow
    have hle := rowid_le_maxRowid hrow
    rw [maxRowid_backfill] at hle
    simp
    omega
  · rename_i hneeds
    exact Bool.eq_false_iff.mpr hneeds

/-! ## Every history -/

theorem Step.fenced {db db' : Database Columns} (hstep : Step db db') (h : Fenced db) : Fenced db' := by
  cases hstep with
  | oldWriter repo headSha columns =>
    apply h.insertRow
    intro identity _
    exact ⟨(fun _ hkey => nomatch hkey), (fun _ hkey => nomatch hkey)⟩
  | newWriter repo headSha columns =>
    apply h.insertRow
    intro identity hidentity
    have hcanonical : canonicalReviewQueueIdentity (some repo) (some headSha) = some identity := hidentity
    rw [hcanonical]
    exact ⟨fun _ hkey => (Option.some.inj hkey).symm, fun _ hkey => (Option.some.inj hkey).symm⟩
  | update columns => exact h.update columns
  | delete rowid hrowid => exact h.delete hrowid
  | opened completedAt => exact h.openStore completedAt

theorem Reachable.fenced {db : Database Columns} (h : Reachable db) : Fenced db := by
  induction h with
  | initial hinitial =>
    obtain ⟨hrows, hmarker⟩ := hinitial
    refine ⟨fun row hrow => ?_, fun completedRowid hsome => ?_, fun completedRowid hsome => ?_⟩
    · rw [hrows] at hrow
      cases hrow
    · rw [hmarker] at hsome
      cases hsome
    · rw [hmarker] at hsome
      cases hsome
  | step _ hstep ih => exact hstep.fenced ih

def withoutKeys (row : JobRow Columns) : JobRow Columns := { row with repoKey := none, headShaKey := none }

theorem openStore_withoutKeys (completedAt : String) (db : Database Columns) :
    (openStore completedAt db).jobs.rows.map withoutKeys = db.jobs.rows.map withoutKeys := by
  unfold openStore
  split
  · unfold backfill Table.update
    rw [List.map_map]
    apply List.map_congr_left
    intro row _
    dsimp only [Function.comp_apply]
    split
    · unfold fillKeys
      split <;> rfl
    · rfl
  · rfl

end

/-- Behind any history, an open gives every row with a canonical repository and head its lower-case keys, changes no
other column, and leaves nothing for a second open to do. -/
theorem open_backfills {Columns : Type} (db : Database Columns) (h : Reachable db) (completedAt : String) :
    (∀ row ∈ (openStore completedAt db).jobs.rows, Keyed row) ∧
      (openStore completedAt db).jobs.rows.map withoutKeys = db.jobs.rows.map withoutKeys ∧
      ∀ later, openStore later (openStore completedAt db) = openStore completedAt db := by
  refine ⟨fun row hrow => keyed_openStore h.fenced completedAt hrow, openStore_withoutKeys completedAt db,
    fun later => ?_⟩
  have hdone := not_needsBackfill_openStore completedAt db
  rw [openStore, if_neg (by rw [hdone]; exact Bool.false_ne_true)]

/-- An older process writes behind the boundary of an open, and the next open fills the keys in. -/
def lateDatabase : Database Unit :=
  insertRow (some "Acme/App") (some "AAAAAAAAAAAAAAAAAAAAAAAAAAAAAAAAAAAAAAAA") none none ()
    (openStore "2026-01-01T00:00:00.000Z" ⟨.empty, none⟩)

theorem open_backfills_late :
    (∀ row ∈ (openStore "2026-01-02T00:00:00.000Z" lateDatabase).jobs.rows, Keyed row) ∧
      (openStore "2026-01-02T00:00:00.000Z" lateDatabase).jobs.rows.map withoutKeys = lateDatabase.jobs.rows.map withoutKeys ∧
      ∀ later, openStore later (openStore "2026-01-02T00:00:00.000Z" lateDatabase) =
        openStore "2026-01-02T00:00:00.000Z" lateDatabase := by
  refine open_backfills lateDatabase ?_ "2026-01-02T00:00:00.000Z"
  have hinitial : Initial (⟨.empty, none⟩ : Database Unit) := ⟨rfl, rfl⟩
  exact ((Reachable.initial hinitial).step (Step.opened _ _)).step (Step.oldWriter _ _ _ _)

end NeonDiff.Shadow
