import Onlyne.Core.Error
import Onlyne.Foundation.Table

/-!
# Migration: the file operations

`applyMigration` and `rollbackMigration` of `migrate.ts`, as the file operations they make one after the other.
Every operation may fail or be the one in which the process stops, and a write that does not complete may leave
anything in its file.  What the rewrite makes of the text of a store is a function of that text.
-/

namespace Onlyne.Migration

open Foundation Table

/-! ## File operations -/

abbrev Path := String

abbrev Files := Table Path String

/-- What becomes of a file operation.  A write that does not complete leaves the file alone, or this text in it. -/
inductive Fate where
  | done
  | fails (left : Option String)
  | stops (left : Option String)
  deriving DecidableEq, Repr

inductive Ending where
  | resolved
  | rejected
  | stopped
  deriving DecidableEq, Repr

/-- The rest of a call, or how it ended and the files then. -/
abbrev Disk (α : Type) := Except (Ending × Files) α

def reject {α : Type} (files : Files) : Disk α := .error (.rejected, files)

section

variable (files : Files) (path : Path) (text : String) (fate : Fate)

def operation : Fate → Disk Unit
  | .done => .ok ()
  | .fails _ => reject files
  | .stops _ => .error (.stopped, files)

def readFile : Disk String := do
  operation files fate
  match files.get path with
  | some text => .ok text
  | none => reject files

def leave (left : Option String) : Files :=
  left.elim files (files.put path)

def writeFile : Fate → Disk Files
  | .done => .ok (files.put path text)
  | .fails left => .error (.rejected, leave files path left)
  | .stops left => .error (.stopped, leave files path left)

/-- A write with the flag `wx`: the file must not be there. -/
def createFile : Disk Files :=
  if (files.get path).isSome then do
    operation files fate
    reject files
  else writeFile files path text fate

def rename (source target : Path) (fate : Fate) : Disk Files := do
  operation files fate
  match files.get source with
  | some text => .ok ((files.delete source).put target text)
  | none => reject files

end

/-! ## The calls -/

structure MigrationInput where
  storePath : Path
  snapshotPath : Option Path := none
  reportPath : Option Path := none
  -- The instant, the names of the two nodes, and the process with the instant, as they stand in file names.
  stamp : String
  names : String
  process : String
  -- What the checks and the rewrite make of the text of a store: the planned text and the text of the report.
  rewrite : String → Option (String × String)

namespace MigrationInput

def snapshot (input : MigrationInput) : Path :=
  input.snapshotPath.getD (input.storePath ++ ".snapshot-" ++ input.stamp)

def report (input : MigrationInput) : Path :=
  input.reportPath.getD (input.storePath ++ ".migration-" ++ input.names ++ ".json")

def temp (input : MigrationInput) : Path := input.storePath ++ (".migrating-" ++ input.process)

end MigrationInput

/-- The fates of the operations of `applyMigration`, and whether the store was touched between the two `stat`s. -/
structure Fates where
  read : Fate := .done
  snapshot : Fate := .done
  verify : Fate := .done
  before : Fate := .done
  temp : Fate := .done
  after : Fate := .done
  moved : Bool := false
  unlink : Fate := .done
  rename : Fate := .done
  report : Fate := .done

/-- `applyMigration` up to the rename: the text of the report, and the files. -/
def replaceStore (input : MigrationInput) (files : Files) (fates : Fates) : Disk (String × Files) := do
  let original ← readFile files input.storePath fates.read
  match input.rewrite original with
  | none => reject files
  | some (planned, report) =>
    let files ← createFile files input.snapshot original fates.snapshot
    let copy ← readFile files input.snapshot fates.verify
    if copy ≠ original then reject files
    else
      operation files fates.before
      let files ← writeFile files input.temp planned fates.temp
      operation files fates.after
      if fates.moved then
        match fates.unlink with
        | .done => reject (files.delete input.temp)
        | .fails _ => reject files
        | .stops _ => .error (.stopped, files)
      else
        let files ← rename files input.temp input.storePath fates.rename
        .ok (report, files)

def ending : Disk Files → Ending × Files
  | .ok files => (.resolved, files)
  | .error ended => ended

def applyMigration (input : MigrationInput) (files : Files) (fates : Fates) : Ending × Files :=
  ending do
    let (report, files) ← replaceStore input files fates
    writeFile files input.report report fates.report

structure RollbackInput where
  storePath : Path
  snapshotPath : Path
  stamp : String
  -- Whether `parseStore` accepts the text.
  parses : String → Bool

def RollbackInput.safety (input : RollbackInput) : Path := input.storePath ++ (".rollback-" ++ input.stamp)

structure RollbackFates where
  read : Fate := .done
  current : Fate := .done
  safety : Fate := .done
  write : Fate := .done

/-- Save the store that is replaced; one that cannot be read is not saved. -/
def saveCurrent (input : RollbackInput) (files : Files) (fates : RollbackFates) : Disk Files :=
  match fates.current, files.get input.storePath with
  | .stops _, _ => .error (.stopped, files)
  | .done, some current => createFile files input.safety current fates.safety
  | _, _ => .ok files

def rollbackMigration (input : RollbackInput) (files : Files) (fates : RollbackFates) : Ending × Files :=
  ending do
    let snapshot ← readFile files input.snapshotPath fates.read
    if !input.parses snapshot then reject files
    else
      let files ← saveCurrent input files fates
      writeFile files input.storePath snapshot fates.write

/-! ## What a part of a call that ends it leaves alone -/

/-- Where the computation ends the call, it does not resolve it, and the file holds what it held. -/
def Spares {α : Type} (held : Option String) (path : Path) (x : Disk α) : Prop :=
  ∀ ended, x = .error ended → ended.1 ≠ .resolved ∧ ended.2.get path = held

section Spares

variable {α β : Type} {files files' : Files} {held : Option String} {path target : Path} {text : String} {fate : Fate}

theorem Spares.bind {x : Disk α} {f : α → Disk β} (h : Spares held path x)
    (hrest : ∀ a, x = .ok a → Spares held path (f a)) : Spares held path (x >>= f) := by
  intro ended hend
  rcases bind_eq_error.mp hend with hfst | ⟨a, ha, hlater⟩
  · exact h ended hfst
  · exact hrest a ha ended hlater

theorem spares_ok {a : α} : Spares held path (.ok a : Disk α) := fun _ h => by cases h

theorem spares_error {how : Ending} (hhow : how ≠ .resolved) (hheld : files.get path = held) :
    Spares held path (.error (how, files) : Disk α) := by
  intro ended hend
  cases hend
  exact ⟨hhow, hheld⟩

section

variable (hheld : files.get path = held)
include hheld

theorem spares_operation : Spares held path (operation files fate) := by
  cases fate with
  | done => exact spares_ok
  | _ => exact spares_error (by decide) hheld

theorem spares_readFile : Spares held path (readFile files target fate) := by
  refine (spares_operation hheld).bind fun _ _ => ?_
  split
  · exact spares_ok
  · exact spares_error (by decide) hheld

theorem spares_writeFile (hoth : path ≠ target) : Spares held path (writeFile files target text fate) := by
  have hleft (left : Option String) : (leave files target left).get path = held := by
    cases left with
    | none => exact hheld
    | some => exact (get_put_ne _ _ hoth).trans hheld
  cases fate with
  | done => exact spares_ok
  | fails left | stops left => exact spares_error (by decide) (hleft left)

theorem spares_createFile (hthere : held ≠ none) : Spares held path (createFile files target text fate) := by
  unfold createFile
  split_ifs with hex
  · exact (spares_operation hheld).bind fun _ _ => spares_error (by decide) hheld
  · refine spares_writeFile hheld ?_
    rintro rfl
    rw [hheld] at hex
    exact hex (Option.isSome_iff_ne_none.mpr hthere)

end

theorem operation_ok (h : operation files fate = .ok ()) : fate = .done := by
  cases fate <;> cases h
  rfl

theorem readFile_ok (h : readFile files target fate = .ok text) : fate = .done ∧ files.get target = some text := by
  obtain ⟨_, hdone, h⟩ := bind_eq_ok.mp h
  split at h <;> cases h
  exact ⟨operation_ok hdone, by assumption⟩

theorem writeFile_ok (h : writeFile files target text fate = .ok files') :
    fate = .done ∧ files' = files.put target text := by
  cases fate <;> cases h
  exact ⟨rfl, rfl⟩

theorem createFile_ok (h : createFile files target text fate = .ok files') :
    fate = .done ∧ files.get target = none ∧ files' = files.put target text := by
  unfold createFile at h
  split_ifs at h with hex
  · obtain ⟨_, -, h⟩ := bind_eq_ok.mp h
    cases h
  · obtain ⟨hdone, hput⟩ := writeFile_ok h
    exact ⟨hdone, by simpa using hex, hput⟩

end Spares

theorem append_ne_self (path mark rest : String) (h : mark ≠ "") : path ++ (mark ++ rest) ≠ path := by
  intro heq
  have hlist := congrArg String.toList heq
  simp at hlist
  exact h hlist.1

/-! ## All or nothing -/

section Apply

variable {input : MigrationInput} {files : Files} {fates : Fates}

theorem temp_ne_store (input : MigrationInput) : input.temp ≠ input.storePath :=
  append_ne_self _ _ _ (by decide)

theorem replaceStore_spares : Spares (files.get input.storePath) input.storePath (replaceStore input files fates) := by
  refine (spares_readFile rfl).bind fun original horig => ?_
  have hthere : files.get input.storePath ≠ none := by simp [(readFile_ok horig).2]
  split
  · exact spares_error (by decide) rfl
  refine (spares_createFile rfl hthere).bind fun files₁ hcre => ?_
  obtain ⟨-, hfree, rfl⟩ := createFile_ok hcre
  have hkept : (files.put input.snapshot original).get input.storePath = files.get input.storePath := by
    refine get_put_ne _ _ fun hsame => hthere ?_
    rw [hsame, hfree]
  refine (spares_readFile hkept).bind fun copy _ => ?_
  split
  · exact spares_error (by decide) hkept
  refine (spares_operation hkept).bind fun _ _ => ?_
  refine (spares_writeFile hkept (temp_ne_store input).symm).bind fun files₂ hwr => ?_
  have hkept₂ : files₂.get input.storePath = files.get input.storePath := by
    rw [(writeFile_ok hwr).2, get_put_ne _ _ (temp_ne_store input).symm, hkept]
  refine (spares_operation hkept₂).bind fun _ _ => ?_
  split
  · split
    · exact spares_error (by decide) ((get_delete_ne _ (temp_ne_store input).symm).trans hkept₂)
    · exact spares_error (by decide) hkept₂
    · exact spares_error (by decide) hkept₂
  · refine Spares.bind ?_ fun _ _ => spares_ok
    refine (spares_operation hkept₂).bind fun _ _ => ?_
    split
    · exact spares_ok
    · exact spares_error (by decide) hkept₂

/-- No operation up to the rename fails: the store is read and rewritten, and its snapshot is created. -/
structure Replaces (input : MigrationInput) (files : Files) (fates : Fates) (original planned report : String) :
    Prop where
  store : files.get input.storePath = some original
  rewritten : input.rewrite original = some (planned, report)
  free : files.get input.snapshot = none
  done : fates = { unlink := fates.unlink, report := fates.report }

/-- After the rename the store is the planned one, and the snapshot holds the original text. -/
theorem replaceStore_ok {report : String} {files' : Files} (h : replaceStore input files fates = .ok (report, files')) :
    ∃ original planned, Replaces input files fates original planned report ∧ files'.get input.storePath = some planned ∧
      files'.get input.snapshot = if input.snapshot = input.temp then none else some original := by
  obtain ⟨original, horig, h⟩ := bind_eq_ok.mp h
  obtain ⟨hread, hst⟩ := readFile_ok horig
  split at h
  · cases h
  next planned report hplan =>
  obtain ⟨files₁, hcre, h⟩ := bind_eq_ok.mp h
  obtain ⟨hcreate, hfree, rfl⟩ := createFile_ok hcre
  obtain ⟨copy, hcopy, h⟩ := bind_eq_ok.mp h
  split at h
  · cases h
  obtain ⟨_, hbef, h⟩ := bind_eq_ok.mp h
  obtain ⟨files₂, hwr, h⟩ := bind_eq_ok.mp h
  obtain ⟨hwrite, rfl⟩ := writeFile_ok hwr
  obtain ⟨_, haft, h⟩ := bind_eq_ok.mp h
  split at h
  · split at h <;> cases h
  next hmv =>
  obtain ⟨files₃, hren, h⟩ := bind_eq_ok.mp h
  cases h
  obtain ⟨_, hrename, hren⟩ := bind_eq_ok.mp hren
  rw [get_put_self] at hren
  cases hren
  refine ⟨original, planned, ⟨hst, hplan, hfree, ?_⟩, get_put_self .., ?_⟩
  · obtain ⟨hverify, -⟩ := readFile_ok hcopy
    have hbef := operation_ok hbef
    have haft := operation_ok haft
    have hrename := operation_ok hrename
    rw [Bool.not_eq_true] at hmv
    cases fates
    congr
  · have hapart : input.snapshot ≠ input.storePath := by
      intro hsame
      rw [hsame, hst] at hfree
      cases hfree
    rw [get_put_ne _ _ hapart, get_delete, get_put, get_put_self]
    split_ifs <;> rfl

theorem replaceStore_of_replaces {original planned report : String}
    (h : Replaces input files fates original planned report) :
    ∃ files', replaceStore input files fates = .ok (report, files') := by
  obtain ⟨hst, hrew, hfree, hdone⟩ := h
  rw [hdone]
  simp [replaceStore, bind, Except.bind, readFile, operation, createFile, writeFile, rename, hst, hrew,
    hfree, get_put_self]

/-- All or nothing: a call that rejects has left the store as it was, one that resolves has left the planned store
and the original text in the snapshot, and one that is stopped has left either store. -/
structure AllOrNothing (input : MigrationInput) (files : Files) (result : Ending × Files) : Prop where
  rejected : result.1 = .rejected → result.2.get input.storePath = files.get input.storePath
  resolved : result.1 = .resolved → ∃ original planned report, files.get input.storePath = some original ∧
    input.rewrite original = some (planned, report) ∧ result.2.get input.storePath = some planned ∧
    result.2.get input.snapshot = some original
  stopped : result.1 = .stopped → result.2.get input.storePath = files.get input.storePath ∨
    ∃ original planned report, files.get input.storePath = some original ∧
      input.rewrite original = some (planned, report) ∧ result.2.get input.storePath = some planned

/-- The write of the report, after the store was replaced, spoils nothing: it completes, over neither the store nor
the snapshot, which is not the temporary file; or what it leaves is what a call that ends so may leave. -/
def Harmless (input : MigrationInput) (original planned report : String) : Fate → Prop
  | .done => (input.report = input.storePath → report = planned) ∧
    if input.report = input.snapshot then report = original else input.snapshot ≠ input.temp
  | .fails left => (if input.report = input.storePath then left.getD planned else planned) = original
  | .stops left => input.report = input.storePath → left.getD planned = original ∨ left.getD planned = planned

theorem leave_get (files : Files) (path target : Path) (left : Option String) :
    (leave files target left).get path = if path = target then left.or (files.get path) else files.get path := by
  cases left <;> simp [leave, get_put]

/-- Once the store is replaced, it is for the write of the report to keep all or nothing. -/
theorem report_iff {files₁ : Files} {original planned report : String} (fate : Fate)
    (hst : files.get input.storePath = some original) (hrew : input.rewrite original = some (planned, report))
    (hnow : files₁.get input.storePath = some planned)
    (hsnap : files₁.get input.snapshot = if input.snapshot = input.temp then none else some original) :
    AllOrNothing input files (ending (writeFile files₁ input.report report fate)) ↔
      Harmless input original planned report fate := by
  have hleft (left : Option String) : (leave files₁ input.report left).get input.storePath =
      some (if input.report = input.storePath then left.getD planned else planned) := by
    rw [leave_get, hnow]
    by_cases hover : input.report = input.storePath
    · cases left <;> simp [hover]
    · simp [hover, Ne.symm hover]
  cases fate with
  | done =>
    have hdone : AllOrNothing input files (.resolved, files₁.put input.report report) ↔
        (files₁.put input.report report).get input.storePath = some planned ∧
          (files₁.put input.report report).get input.snapshot = some original := by
      constructor
      · intro h
        simpa [hst, hrew] using h.resolved rfl
      · exact fun h => ⟨nofun, fun _ => ⟨original, planned, report, hst, hrew, h⟩, nofun⟩
    refine hdone.trans (and_congr ?_ ?_)
    · rw [get_put, hnow]
      by_cases hover : input.report = input.storePath
      · simp [hover]
      · simp [hover, Ne.symm hover]
    · rw [get_put, hsnap]
      by_cases hover : input.report = input.snapshot
      · simp [hover]
      · simp [hover, Ne.symm hover]
  | fails left =>
    have hfails : AllOrNothing input files (.rejected, leave files₁ input.report left) ↔
        (leave files₁ input.report left).get input.storePath = files.get input.storePath :=
      ⟨fun h => h.rejected rfl, fun h => ⟨fun _ => h, nofun, nofun⟩⟩
    refine hfails.trans ?_
    rw [hleft, hst, Option.some_inj, Harmless]
  | stops left =>
    have hstops : AllOrNothing input files (.stopped, leave files₁ input.report left) ↔
        (leave files₁ input.report left).get input.storePath = some original ∨
          (leave files₁ input.report left).get input.storePath = some planned := by
      constructor
      · intro h
        simpa [hst, hrew] using h.stopped rfl
      · intro h
        refine ⟨nofun, nofun, fun _ => h.imp (·.trans hst.symm) fun h => ?_⟩
        exact ⟨original, planned, report, hst, hrew, h⟩
    refine hstops.trans ?_
    rw [hleft, Harmless]
    by_cases hover : input.report = input.storePath <;> simp [hover]

theorem applyMigration_iff (input : MigrationInput) (files : Files) (fates : Fates) :
    AllOrNothing input files (applyMigration input files fates) ↔
      ∀ original planned report, Replaces input files fates original planned report →
        Harmless input original planned report fates.report := by
  unfold applyMigration
  cases hrepl : replaceStore input files fates with
  | error ended =>
    obtain ⟨hunr, hkept⟩ := replaceStore_spares ended hrepl
    refine iff_of_true ⟨fun _ => hkept, fun h => absurd h hunr, fun _ => .inl hkept⟩ ?_
    intro original planned report h
    obtain ⟨files', hok⟩ := replaceStore_of_replaces h
    rw [hrepl] at hok
    cases hok
  | ok =>
    obtain ⟨original, planned, h, hnow, hsnap⟩ := replaceStore_ok hrepl
    refine (report_iff fates.report h.store h.rewritten hnow hsnap).trans ⟨?_, fun hall => hall _ _ _ h⟩
    intro hharmless original' planned' report' h'
    obtain rfl : original = original' := Option.some.inj (h.store.symm.trans h'.store)
    obtain ⟨rfl, rfl⟩ := Prod.mk.inj (Option.some.inj (h.rewritten.symm.trans h'.rewritten))
    exact hharmless

end Apply

/-! ## Rollback -/

/-- A rollback that resolves restores the snapshot, with the store it replaced at the safety path; any other has left
that store where it was or at the safety path. -/
structure Reversible (input : RollbackInput) (files : Files) (result : Ending × Files) : Prop where
  restored : result.1 = .resolved → result.2.get input.storePath = files.get input.snapshotPath ∧
    ∀ replaced, files.get input.storePath = some replaced → result.2.get input.safety = some replaced
  kept : result.1 ≠ .resolved → ∀ replaced, files.get input.storePath = some replaced →
    result.2.get input.storePath = some replaced ∨ result.2.get input.safety = some replaced

def Fate.Leaves (text : String) : Fate → Prop
  | .done => False
  | .fails left => left.getD text = text
  | .stops left => left.getD text = text

/-- Where the rollback goes on though it could not read the store, nothing is lost of the store. -/
def Saved (input : RollbackInput) (files : Files) (fates : RollbackFates) : Prop :=
  ∀ left snapshot replaced, fates.read = .done → files.get input.snapshotPath = some snapshot →
    input.parses snapshot = true → fates.current = .fails left → files.get input.storePath = some replaced →
    files.get input.safety = some replaced ∨ fates.write.Leaves replaced

section Rollback

variable {input : RollbackInput} {files : Files} {fates : RollbackFates}

theorem safety_ne_store (input : RollbackInput) : input.safety ≠ input.storePath :=
  append_ne_self _ _ _ (by decide)

theorem saveCurrent_spares : Spares (files.get input.storePath) input.storePath (saveCurrent input files fates) := by
  unfold saveCurrent
  split
  · exact spares_error (by decide) rfl
  · next hst => exact spares_createFile rfl (by simp [hst])
  · exact spares_ok

/-- The store that is read is at the safety path; where it was not read, the files are as they were. -/
theorem saveCurrent_ok {files' : Files} (h : saveCurrent input files fates = .ok files') :
    files'.get input.storePath = files.get input.storePath ∧ (fates.current = .done ∧
          (∀ replaced, files.get input.storePath = some replaced → files'.get input.safety = some replaced) ∨
        (∃ left, fates.current = .fails left) ∧ files' = files) := by
  unfold saveCurrent at h
  split at h
  · cases h
  · next current hcur hst =>
    obtain ⟨-, -, rfl⟩ := createFile_ok h
    refine ⟨get_put_ne _ _ (safety_ne_store input).symm, .inl ⟨hcur, fun replaced hrepl => ?_⟩⟩
    rw [hst] at hrepl
    cases hrepl
    exact get_put_self ..
  · next hstops hdone =>
    cases h
    refine ⟨rfl, ?_⟩
    cases hcur : fates.current with
    | fails left => exact .inr ⟨⟨left, rfl⟩, rfl⟩
    | done => exact .inl ⟨rfl, fun replaced hrepl => absurd hrepl (hdone replaced hcur)⟩
    | stops left => exact absurd hcur (hstops left)

/-- The write of the store keeps what it replaces if that is at the safety path, or if it changes nothing. -/
theorem restore_iff {files₁ : Files} {snapshot : String} (fate : Fate)
    (hsnap : files.get input.snapshotPath = some snapshot)
    (hst : files₁.get input.storePath = files.get input.storePath) :
    Reversible input files (ending (writeFile files₁ input.storePath snapshot fate)) ↔
      ∀ replaced, files.get input.storePath = some replaced →
        files₁.get input.safety = some replaced ∨ fate.Leaves replaced := by
  have hleave (left : Option String) : (leave files₁ input.storePath left).get input.safety =
      files₁.get input.safety := by
    rw [leave_get, if_neg (safety_ne_store input)]
  have hleft (left : Option String) {replaced : String} (hrepl : files.get input.storePath = some replaced) :
      (leave files₁ input.storePath left).get input.storePath = some replaced ↔ left.getD replaced = replaced := by
    rw [leave_get, if_pos rfl, hst, hrepl]
    cases left <;> simp
  cases fate with
  | done =>
    have hsafe := hleave (some snapshot)
    have hrest : (files₁.put input.storePath snapshot).get input.storePath = files.get input.snapshotPath :=
      (get_put_self ..).trans hsnap.symm
    refine ⟨fun h replaced hrepl => .inl ?_, fun h => ⟨fun _ => ⟨hrest, ?_⟩, fun h => absurd rfl h⟩⟩
    · exact hsafe.symm.trans ((h.restored rfl).2 replaced hrepl)
    · exact fun replaced hrepl => hsafe.trans ((h replaced hrepl).resolve_right id)
  | fails left | stops left =>
    refine ⟨fun h replaced hrepl => ?_, fun h => ⟨nofun, fun _ replaced hrepl => ?_⟩⟩
    · have hkept := h.kept nofun replaced hrepl
      exact hkept.symm.imp (hleave left).symm.trans (hleft left hrepl).mp
    · exact (h replaced hrepl).symm.imp (hleft left hrepl).mpr (hleave left).trans

/-- A rollback keeps what it replaces exactly if it could read it, or loses nothing of it. -/
theorem rollbackMigration_iff (input : RollbackInput) (files : Files) (fates : RollbackFates) :
    Reversible input files (rollbackMigration input files fates) ↔ Saved input files fates := by
  have hspared {ended : Ending × Files} (hunr : ended.1 ≠ .resolved)
      (hkept : ended.2.get input.storePath = files.get input.storePath) : Reversible input files ended :=
    ⟨fun h => absurd h hunr, fun _ replaced hrepl => .inl (hkept.trans hrepl)⟩
  unfold rollbackMigration
  cases hread : readFile files input.snapshotPath fates.read with
  | error ended =>
    obtain ⟨hunr, hkept⟩ := spares_readFile rfl ended hread
    refine iff_of_true (hspared hunr hkept) fun left snapshot replaced hdone hsnap => ?_
    simp [readFile, bind, Except.bind, hdone, operation, hsnap] at hread
  | ok snapshot =>
    obtain ⟨hdone, hsnap⟩ := readFile_ok hread
    have hsame {snapshot' : String} (h : files.get input.snapshotPath = some snapshot') : snapshot = snapshot' :=
      Option.some.inj (hsnap.symm.trans h)
    by_cases hparses : input.parses snapshot = true
    · cases hsaved : saveCurrent input files fates with
      | error ended =>
        obtain ⟨hunr, hkept⟩ := saveCurrent_spares ended hsaved
        refine iff_of_true ?_ fun left _ _ _ _ _ hcur => ?_
        · simpa [bind, Except.bind, hparses, ending] using hspared hunr hkept
        · simp [saveCurrent, hcur] at hsaved
      | ok =>
        obtain ⟨hst, hsafe⟩ := saveCurrent_ok hsaved
        have hrest := restore_iff fates.write hsnap hst
        simp only [bind, Except.bind, hparses, Bool.not_true, Bool.false_eq_true, if_false]
        refine hrest.trans ?_
        rcases hsafe with ⟨hcur, hkept⟩ | ⟨⟨left, hcur⟩, rfl⟩
        · refine iff_of_true (fun replaced h => .inl (hkept replaced h)) fun left _ _ _ _ _ hfails => ?_
          rw [hcur] at hfails
          cases hfails
        · exact ⟨fun h _ _ replaced _ _ _ _ => h replaced,
            fun h replaced => h left snapshot replaced hdone hsnap hparses hcur⟩
    · refine iff_of_true ?_ fun left _ _ _ hsnap' hparses' => ?_
      · have hrejected : Reversible input files (.rejected, files) := hspared nofun rfl
        simpa [bind, Except.bind, hparses, ending, reject] using hrejected
      · exact absurd (hsame hsnap' ▸ hparses') hparses

end Rollback

/-! ## The migration and its rollback -/

end Onlyne.Migration
