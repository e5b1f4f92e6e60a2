import Onlyne.Messages.ThreadLog

/-!
# Messages: admission at most once

The record of an identity only ever moves forward (`Leads`): once written it stays, except that a
receipt becomes a tombstone when its entry expires.  Whatever an admission answers is read from that
record or written to it, so every law between an earlier and a later call follows from what the
earlier one leaves in the record.
-/

namespace Onlyne.Messages

open Foundation Table List

section Records

variable {D : Type} {slot : ThreadRef × Nat} {m : MessageRef}

/-! ## Records move forward -/

/-- How the record of an identity may have changed in the meantime. -/
inductive Leads : Option (Remembered D) → Option (Remembered D) → Prop where
  | first (after : Option (Remembered D)) : Leads none after
  | kept (record : Remembered D) : Leads (some record) (some record)
  | buried {record : Remembered D} {receipt} (verdict : record.verdict = .admitted receipt) :
      Leads (some record) (some ⟨record.digest, .tombstone, record.retryUntil⟩)

theorem Leads.refl (record : Option (Remembered D)) : Leads record record := by
  cases record with
  | none => exact .first none
  | some record => exact .kept record

theorem Leads.trans {a b c : Option (Remembered D)} (hab : Leads a b) (hbc : Leads b c) : Leads a c := by
  cases hab with
  | first => exact .first c
  | kept => exact hbc
  | buried verdict =>
    cases hbc with
    | kept => exact .buried verdict
    | buried verdict' => cases verdict'

variable {record : Remembered D} {after : Option (Remembered D)}

theorem Leads.some_digest (h : Leads (some record) after) :
    ∃ record', after = some record' ∧ record'.digest = record.digest := by
  cases h with
  | kept => exact ⟨record, rfl, rfl⟩
  | buried => exact ⟨_, rfl, rfl⟩

theorem Leads.final (h : Leads (some record) after)
    (hfin : ∀ receipt, record.verdict ≠ .admitted receipt) : after = some record := by
  cases h with
  | kept => rfl
  | buried verdict => exact absurd verdict (hfin _)

theorem Leads.receipt {record' : Remembered D} {receipt receipt' : Receipt}
    (h : Leads (some record) (some record')) (hverd : record.verdict = .admitted receipt)
    (hverd' : record'.verdict = .admitted receipt') : receipt = receipt' := by
  cases h with
  | kept =>
    cases hverd.symm.trans hverd'
    rfl
  | buried => cases hverd'

section Changes

variable {ctx : Context D} {log log' : Log D}

theorem leads_put {identity : MessageRef} {record : Remembered D}
    {message : Table MessageRef (Remembered D)} (hfr : message.get identity = none)
    (m : MessageRef) : Leads (message.get m) ((message.put identity record).get m) := by
  rw [get_put]
  split_ifs with hm
  · rw [hm, hfr]
    exact .first _
  · exact .refl _

theorem Consistent.leads_buries (hlog : Consistent log) (hbury : Buries log log') (m : MessageRef) :
    Leads (log.message.get m) (log'.message.get m) := by
  cases hbury with
  | @bury slot entry record row remembered =>
    obtain ⟨record', receipt, hrec, hverd, -⟩ := hlog.receipts slot entry row
    cases remembered.symm.trans hrec
    simp only [get_put]
    split_ifs with hm
    · rw [hm, remembered]
      exact .buried hverd
    · exact .refl _

theorem Consistent.leads (hlog : Consistent log) (hchg : Change ctx log log') (m : MessageRef) :
    Leads (log.message.get m) (log'.message.get m) := by
  cases hchg with
  | upkeep hkeep =>
    rcases hkeep.rows with ⟨hmsg, -⟩ | rows
    · rw [hmsg]
      exact .refl _
    -- The log is consistent before every row of the expiry.
    · suffices hboth : Consistent log' ∧ Leads (log.message.get m) (log'.message.get m) from hboth.2
      clear hkeep
      induction rows with
      | refl => exact ⟨hlog, .refl _⟩
      | tail _ hbury ih => exact ⟨ih.1.buries hbury, ih.2.trans (ih.1.leads_buries hbury m)⟩
  | refused digest retryUntil failure fresh =>
    unfold Log.refuse
    split_ifs
    · exact leads_put fresh m
    · exact .refl _
  | admitted auth request input fresh =>
    rw [admit_message]
    exact leads_put fresh m

/-! ## Entries -/

/-- The step from `log` to `log'` writes an entry of the message `m` into this slot. -/
def Writes (log log' : Log D) (slot : ThreadRef × Nat) (m : MessageRef) : Prop :=
  ∃ entry, log'.entry.get slot = some entry ∧ entry.message.ref = m ∧ log.entry.get slot ≠ some entry

/-- An entry is written by admitting its message, into the slot of its receipt. -/
theorem admits_of_writes (hchg : Change ctx log log') (hwr : Writes log log' slot m) :
    ∃ receipt, Admits log log' m receipt ∧ slot = (receipt.threadRef, receipt.seq) := by
  obtain ⟨entry, hrow, hm, hnew⟩ := hwr
  cases hchg with
  | upkeep hkeep => exact absurd (hkeep.entry hrow) hnew
  | refused =>
    unfold Log.refuse at hrow
    split_ifs at hrow <;> exact absurd hrow hnew
  | @admitted staged auth request input fresh landed =>
    rw [admit_entry] at hrow
    rcases get_put_cases hrow with ⟨rfl, rfl⟩ | ⟨-, hold⟩
    · subst hm
      refine ⟨staged.receipt ctx request input, ⟨fresh, ?_⟩, rfl⟩
      exact ⟨_, get_put_self .., rfl⟩
    · exact absurd hold hnew

/-- The step from `log` to `log'` expires an entry of the message `m`. -/
def Expires (log log' : Log D) (m : MessageRef) : Prop :=
  ∃ slot entry, log.entry.get slot = some entry ∧ entry.message.ref = m ∧ log'.entry.get slot = none

/-- Only the tombstone of the message `m` remains. -/
def Buried (log : Log D) (m : MessageRef) : Prop :=
  ∃ record, log.message.get m = some record ∧ record.verdict = .tombstone

theorem entry_or_buried (h : Relation.ReflTransGen Buries log log')
    {entry : Entry} (hrow : log.entry.get slot = some entry) :
    log'.entry.get slot = some entry ∨ Buried log' entry.message.ref := by
  induction h with
  | refl => exact .inl hrow
  | tail _ hbury ih =>
    cases hbury with
    | @bury slot' entry' record row remembered =>
      rcases ih with hstill | ⟨old, hold, hverd⟩
      · by_cases hslot : slot = slot'
        · subst hslot
          cases hstill.symm.trans row
          exact .inr ⟨_, get_put_self .., rfl⟩
        · exact .inl ((get_delete_ne _ hslot).trans hstill)
      · right
        unfold Buried
        simp only [get_put]
        split_ifs
        · exact ⟨_, rfl, rfl⟩
        · exact ⟨old, hold, hverd⟩

theorem buried_of_expires (hchg : Change ctx log log') (hexpires : Expires log log' m) : Buried log' m := by
  obtain ⟨slot, entry, hrow, rfl, hgone⟩ := hexpires
  cases hchg with
  | upkeep hkeep =>
    rcases hkeep.rows with ⟨-, hent⟩ | rows
    · rw [hent, hrow] at hgone
      cases hgone
    · rcases entry_or_buried rows hrow with hstill | hburied
      · cases hstill.symm.trans hgone
      · exact hburied
  | refused =>
    unfold Log.refuse at hgone
    split_ifs at hgone <;> cases hrow.symm.trans hgone
  | admitted =>
    rw [admit_entry, get_put] at hgone
    split_ifs at hgone
    cases hrow.symm.trans hgone

end Changes

end Records

/-! ## Answers -/

section Answers

variable {D : Type} [DecidableEq D] {ctx : Context D} {failure : Failure}

section

variable (ctx : Context D) (t : Transition (Store D) Call)

def answer : Option (Except Thrown Answer) :=
  (perform ctx t.before t.act).map Prod.fst

/-- The call is an admission of `request` that gets past its checks to its transaction. -/
def Reaches (call : Call) (auth : Auth) (request : SendRequest) : Prop :=
  ∃ input supported, call = .admitRequest auth request input ∧ admitChecks ctx auth request = .ok () ∧
    input.supports = .ok supported

def returned : Option (MessageRef × Receipt) :=
  match t.act, answer ctx t with
  | .admitRequest _ request _, some (.ok (.receipt receipt)) => some (request.message.ref, receipt)
  | _, _ => none

def SameReceipt (t t' : Transition (Store D) Call) : Prop :=
  ∀ m receipt receipt', returned ctx t = some (m, receipt) → returned ctx t' = some (m, receipt') →
    receipt = receipt'

instance : Std.Symm (SameReceipt ctx) where
  symm _ _ hsame m receipt receipt' hreturned hreturned' :=
    (hsame m receipt' receipt hreturned' hreturned).symm

/-- The call is the admission of `request` that records a verdict on its identity. -/
def Records (request : SendRequest) (record : Remembered D) : Prop :=
  (∃ auth input, t.act = .admitRequest auth request input) ∧
    t.before.message.get request.message.ref = none ∧
    t.after.message.get request.message.ref = some record

end

def SameContent (request request' : SendRequest) : Prop :=
  request.message = request'.message ∧ request.targetEndpoint = request'.targetEndpoint

def traceQuiet : Call → Bool
  | .admitRequest _ _ input =>
    (input.traceDuplicate matches .ok _) && (input.traceReceived matches .ok _)
  | _ => true

theorem traceSafe_of_quiet {call : Call} (h : traceQuiet call = true) : traceSafe call = true := by
  cases call with
  | admitRequest auth request input =>
    cases hrecv : input.traceReceived with
    | error => simp [traceQuiet, hrecv] at h
    | ok => simp [traceSafe, hrecv]
  | _ => rfl

variable {auth : Auth} {request : SendRequest} {input : AdmitInput} {t : Transition (Store D) Call}
  {record : Remembered D} {m : MessageRef}

theorem traceDuplicate_of_quiet (h : traceQuiet (.admitRequest auth request input) = true) :
    input.traceDuplicate = .ok () := by
  cases hduplicate : input.traceDuplicate with
  | error => simp [traceQuiet, hduplicate] at h
  | ok => rfl

omit [DecidableEq D] in
theorem contentDigest_eq_iff (hinj : Function.Injective ctx.fingerprint) {request' : SendRequest} :
    contentDigest ctx request = contentDigest ctx request' ↔ SameContent request request' := by
  unfold contentDigest
  rw [hinj.eq_iff, Digested.content.injEq]
  rfl

/-! ### From a call to the record -/

theorem answer_of_step (hact : t.act = .admitRequest auth request input)
    (hstep : step ctx t.before t.act = some t.after) :
    ∃ result, admitRequest ctx t.before auth request input = some (result, t.after) ∧
      answer ctx t = some (result.map Answer.receipt) := by
  rw [hact] at hstep
  obtain ⟨result, hadm⟩ := admit_of_step hstep
  refine ⟨result, hadm, ?_⟩
  simp [answer, hact, perform, hadm]

/-- A receipt is returned for a fresh identity or from its record, and recorded either way. -/
theorem receipt_of_returned {receipt : Receipt} (hlog : Consistent t.before.log)
    (hsafe : traceSafe t.act = true) (hstep : step ctx t.before t.act = some t.after)
    (hret : returned ctx t = some (m, receipt)) :
    (t.before.log.message.get m = none ∨ ∃ record, t.before.log.message.get m = some record ∧
        record.verdict = .admitted receipt) ∧
      ∃ record, t.after.log.message.get m = some record ∧ record.verdict = .admitted receipt := by
  unfold returned at hret
  split at hret
  · next auth request input receipt' hact hans =>
    cases hret
    obtain ⟨result, hadm, hres⟩ := answer_of_step hact hstep
    rw [hans] at hres
    cases result with
    | error => cases hres
    | ok =>
      cases hres
      rw [hact] at hsafe
      have hdec := admit_ok hlog.standing (traceReceived_ne hsafe) hadm
      generalize t.after.log = log' at hdec
      cases hdec with
      | replayed record content verdict => exact ⟨.inr ⟨_, record, verdict⟩, _, record, verdict⟩
      | admitted fresh =>
        refine ⟨.inl fresh, ?_⟩
        exact ⟨_, get_put_self .., rfl⟩
  · cases hret

/-- The record of an identity has the digest of the content it was recorded for, and a recorded refusal
is the one thrown. -/
theorem Records.spec (hrecs : Records t request record) (hlog : Consistent t.before.log)
    (hsafe : traceSafe t.act = true) (hstep : step ctx t.before t.act = some t.after) :
    record.digest = contentDigest ctx request ∧ ∀ failure, record.verdict = .refused failure →
        answer ctx t = some (.error (thrownAgain failure)) := by
  obtain ⟨⟨auth, input, hact⟩, hnone, hsome⟩ := hrecs
  obtain ⟨result, hadm, hans⟩ := answer_of_step hact hstep
  rw [hact] at hsafe
  have hbef : t.before.log.message.get request.message.ref = none := hnone
  have haft : t.after.log.message.get request.message.ref = some record := hsome
  rcases admit_log hlog.standing (traceReceived_ne hsafe) hadm with
    hsame | ⟨outcome, hdec, hthr⟩
  · rw [hsame, hbef] at haft
    cases haft
  · generalize t.after.log = log' at hdec haft
    cases hdec with
    | differs old | replayed old | tombstone old | repeated old => cases hbef.symm.trans old
    | @refused failure fresh =>
      unfold Log.refuse at haft
      split_ifs at haft
      · rw [get_put_self] at haft
        cases haft
        refine ⟨rfl, ?_⟩
        intro failure' hverd
        cases hverd
        rw [hans, hthr failure rfl]
        rfl
      · cases hbef.symm.trans haft
    | admitted =>
      rw [admit_message, get_put_self] at haft
      cases haft
      refine ⟨rfl, ?_⟩
      intro failure hverd
      cases hverd

theorem records_of_fresh (hlog : Consistent t.before.log) (hsafe : traceSafe t.act = true)
    (hstep : step ctx t.before t.act = some t.after) (hnone : t.before.log.message.get m = none)
    (hsome : t.after.log.message.get m = some record) :
    ∃ request, Records t request record ∧ request.message.ref = m := by
  rcases admission_or_upkeep hstep with ⟨auth, request, input, hact⟩ | hkeep
  · have hm : m = request.message.ref := by
      by_contra hne
      obtain ⟨result, hadm, -⟩ := answer_of_step hact hstep
      rw [hact] at hsafe
      rcases admit_log hlog.standing (traceReceived_ne hsafe) hadm with
        hsame | ⟨outcome, hdec, -⟩
      · rw [hsame, hnone] at hsome
        cases hsome
      · rw [hdec.message_ne hne, hnone] at hsome
        cases hsome
    subst hm
    exact ⟨request, ⟨⟨auth, input, hact⟩, hnone, hsome⟩, rfl⟩
  · cases (hkeep.fresh hnone).symm.trans hsome

/-! ### From the record to an answer -/

/-- An admission that reaches its transaction answers what its transaction refuses. -/
theorem answer_of_refused {supported : Bool} {s' : Store D}
    (hact : t.act = .admitRequest auth request input) (hchk : admitChecks ctx auth request = .ok ())
    (hsup : input.supports = .ok supported)
    (htx : admitTx ctx t.before auth request input supported = .ok (.error failure, s')) :
    answer ctx t = some (.error (thrownAgain failure)) := by
  simp only [answer, hact, perform, admitRequest, hchk, hsup, htx]
  rfl

theorem answer_repeats (hlog : Consistent t.before.log) (hq : traceQuiet t.act = true)
    (hrch : Reaches ctx t.act auth request) (hunbound : boundElsewhere ctx t.before auth request = false)
    (hrec : t.before.message.get request.message.ref = some record)
    (hdig : record.digest = contentDigest ctx request) (hverd : record.verdict = .refused failure) :
    answer ctx t = some (.error (thrownAgain failure)) := by
  obtain ⟨input, supported, hact, hchk, hsup⟩ := hrch
  rw [hact] at hq
  have hstd := not_transient_of_recorded (hlog.standing _ _ _ hrec hverd)
  have htx : admitTx ctx t.before auth request input supported = .ok (.error failure, t.before) := by
    simp [admitTx, hunbound, hrec, traceDuplicate_of_quiet hq, hdig, hverd, hstd]
  exact answer_of_refused hact hchk hsup htx

/-- Other content under a recorded identity is a conflict, whatever the key is bound to. -/
theorem answer_conflicts (hq : traceQuiet t.act = true) (hrch : Reaches ctx t.act auth request)
    (hrec : t.before.message.get request.message.ref = some record) (hdig : record.digest ≠ contentDigest ctx request) :
    ∃ failure, failure.code = .idConflict ∧ answer ctx t = some (.error (.onlyne failure)) := by
  obtain ⟨input, supported, hact, hchk, hsup⟩ := hrch
  rw [hact] at hq
  by_cases hbd : boundElsewhere ctx t.before auth request = true
  · refine ⟨onlyneError .idConflict "The idempotency key is bound to another request.", rfl, ?_⟩
    simp [answer, hact, perform, admitRequest, hchk, hsup, admitTx, hbd, fail, Except.map]
  · have htx : admitTx ctx t.before auth request input supported = .ok (.error
        (onlyneError .idConflict "This message identity has different content."), t.before) := by
      simp [admitTx, hbd, hrec, traceDuplicate_of_quiet hq, hdig]
    exact ⟨_, rfl, answer_of_refused hact hchk hsup htx⟩

end Answers

/-! ## Runs -/

section Runs

variable {D : Type} [DecidableEq D] {ctx : Context D} {h : List (Transition (Store D) Call)}
  {s : Store D} {m : MessageRef} {auth' : Auth}

structure Taken (ctx : Context D) (t : Transition (Store D) Call) : Prop where
  log : Consistent t.before.log
  quiet : traceQuiet t.act = true
  step : step ctx t.before t.act = some t.after

variable {t : Transition (Store D) Call}

theorem taken_of_mem (hrun : Run (step ctx) {} h s) (hq : ∀ t ∈ h, traceQuiet t.act = true) (ht : t ∈ h) :
    Taken ctx t where
  log := (change_of_mem hrun (fun t ht => traceSafe_of_quiet (hq t ht)) ht).1
  quiet := hq t ht
  step := hrun.step_of_mem ht

theorem Taken.safe (ht : Taken ctx t) : traceSafe t.act = true :=
  traceSafe_of_quiet ht.quiet

theorem Taken.change (ht : Taken ctx t) : Change ctx t.before.log t.after.log :=
  step_change ht.log.standing ht.safe ht.step

section

variable (hrun : Run (step ctx) {} h s) (hsafe : ∀ t ∈ h, traceSafe t.act = true)
include hrun hsafe

theorem leads_of_run : h.Pairwise fun t t' => ∀ m, Leads (t.after.log.message.get m) (t'.before.log.message.get m) := by
  refine hrun.pairwise_of (I := fun s => Consistent s.log) (C := fun t => traceSafe t.act = true)
    (P := fun t s => ∀ m, Leads (t.after.log.message.get m) (s.log.message.get m))
    hsafe consistent_empty (fun _ _ _ => consistent_step) ?_ ?_ ?_
  · exact fun _ _ _ _ _ _ m => .refl _
  · intro t s a s' hI hP hstep hC m
    exact (hP m).trans (hI.leads (step_change hI.standing hC hstep) m)
  · exact fun _ _ _ _ _ hP _ _ => hP

/-- Every record goes back to an admission that wrote the first one of its identity. -/
theorem recorded_of_run {record : Remembered D} (hrec : s.log.message.get m = some record) :
    ∃ t ∈ h, ∃ request first, Records t request first ∧ request.message.ref = m ∧ Leads (some first) (some record) := by
  induction hrun generalizing record with
  | nil => cases hrec
  | @snoc h s s' call hprev hstep ih =>
    have hsafe' : ∀ t ∈ h, traceSafe t.act = true := fun t ht => hsafe t (mem_append_left _ ht)
    have hnow := hsafe _ (mem_append_right _ (mem_singleton_self _))
    have hlog := consistent_of_run hprev hsafe'
    have hlead := hlog.leads (step_change hlog.standing hnow hstep) m
    cases hbef : s.log.message.get m with
    | none =>
      obtain ⟨request, hrecs, hm⟩ := records_of_fresh hlog hnow hstep hbef hrec
      refine ⟨_, mem_append_right _ (mem_singleton_self _), request, record, hrecs, hm, ?_⟩
      exact .refl _
    | some =>
      obtain ⟨t, ht, request, first, hrecs, hm, hfst⟩ := ih hsafe' hbef
      rw [hbef, hrec] at hlead
      exact ⟨t, mem_append_left _ ht, request, first, hrecs, hm, hfst.trans hlead⟩

end

/-! ### An earlier and a later call -/

section Later

variable {t t' : Transition (Store D) Call} (ht : Taken ctx t) (ht' : Taken ctx t')
  (hleads : ∀ m, Leads (t.after.log.message.get m) (t'.before.log.message.get m)) {record : Remembered D}
include ht ht' hleads

theorem not_writes_later {slot slot' : ThreadRef × Nat}
    (hwr : Writes t.before.log t.after.log slot m) : ¬ Writes t'.before.log t'.after.log slot' m := by
  intro hwr'
  obtain ⟨receipt, ⟨-, record, hrec, -⟩, -⟩ := admits_of_writes ht.change hwr
  obtain ⟨receipt', ⟨hfr, -⟩, -⟩ := admits_of_writes ht'.change hwr'
  have hlead := hleads m
  rw [hrec, hfr] at hlead
  cases hlead

theorem same_receipt_later : SameReceipt ctx t t' := by
  intro m receipt receipt' hret hret'
  obtain ⟨-, record, hrec, hverd⟩ := receipt_of_returned ht.log ht.safe ht.step hret
  obtain ⟨hbef, -⟩ := receipt_of_returned ht'.log ht'.safe ht'.step hret'
  have hlead := hleads m
  rw [hrec] at hlead
  rcases hbef with hfr | ⟨record', hrec', hverd'⟩
  · rw [hfr] at hlead
    cases hlead
  · rw [hrec'] at hlead
    exact hlead.receipt hverd hverd'

theorem refusal_repeats_later {request request' : SendRequest} {failure : Failure} (hrecs : Records t request record)
    (hverd : record.verdict = .refused failure) (hrch : Reaches ctx t'.act auth' request')
    (hcont : SameContent request request') (hunbound : boundElsewhere ctx t'.before auth' request' = false) :
    answer ctx t' = some (.error (thrownAgain failure)) := by
  have hlead := hleads request.message.ref
  rw [show t.after.log.message.get request.message.ref = some record from hrecs.2.2] at hlead
  have hfin := hlead.final fun receipt hadm => by cases hverd.symm.trans hadm
  have hdig := (hrecs.spec ht.log ht.safe ht.step).1
  refine answer_repeats ht'.log ht'.quiet hrch hunbound ?_ ?_ hverd
  · rw [← hcont.1]
    exact hfin
  · rw [hdig]
    unfold contentDigest
    rw [hcont.1, hcont.2]

theorem other_content_conflicts_later (hinj : Function.Injective ctx.fingerprint) {request request' : SendRequest}
    (hrecs : Records t request record) (hrch : Reaches ctx t'.act auth' request')
    (hsame : request'.message.ref = request.message.ref) (hcont : ¬ SameContent request request') :
    ∃ failure, failure.code = .idConflict ∧ answer ctx t' = some (.error (.onlyne failure)) := by
  have hlead := hleads request.message.ref
  rw [show t.after.log.message.get request.message.ref = some record from hrecs.2.2] at hlead
  obtain ⟨record', hrec', hdig'⟩ := hlead.some_digest
  have hdig := (hrecs.spec ht.log ht.safe ht.step).1
  rw [← hsame] at hrec'
  apply answer_conflicts ht'.quiet hrch hrec'
  rw [hdig', hdig]
  intro heq
  exact hcont ((contentDigest_eq_iff hinj).mp heq)

theorem buried_later (hexpires : Expires t.before.log t.after.log m) :
    (∀ receipt, returned ctx t' ≠ some (m, receipt)) ∧ ∀ slot, ¬ Writes t'.before.log t'.after.log slot m := by
  obtain ⟨record, hrec, hverd⟩ := buried_of_expires ht.change hexpires
  have hlead := hleads m
  rw [hrec] at hlead
  have hfin := hlead.final fun receipt hadm => by cases hverd.symm.trans hadm
  refine ⟨?_, ?_⟩
  · intro receipt hret
    obtain ⟨hfr | ⟨record', hrec', hverd'⟩, -⟩ := receipt_of_returned ht'.log ht'.safe ht'.step hret
    · cases hfin.symm.trans hfr
    · cases hfin.symm.trans hrec'
      cases hverd.symm.trans hverd'
  · intro slot hwr
    obtain ⟨receipt, ⟨hfr, -⟩, -⟩ := admits_of_writes ht'.change hwr
    cases hfin.symm.trans hfr

end Later

/-- **Admission at most once.**  In every run of the message and thread services whose digest is
injective and whose trace hook does not throw:

- a call writes at most one entry for a message, and two calls never both do;
- all receipts returned for a message are the same;
- every record goes back to the admission that first recorded its identity;
- a refusal that is recorded is the one thrown, and thrown again to every later admission of the same
  content that reaches its transaction under a key not bound to another request;
- a later admission of other content under a recorded identity is a conflict;
- an expired message is not admitted again. -/
theorem admission_at_most_once (hinj : Function.Injective ctx.fingerprint)
    (hrun : Run (step ctx) {} h s) (hquiet : ∀ t ∈ h, traceQuiet t.act = true) :
    (∀ t ∈ h, ∀ m slot slot', Writes t.before.log t.after.log slot m →
      Writes t.before.log t.after.log slot' m → slot = slot') ∧ (∀ t ∈ h, ∀ t' ∈ h, SameReceipt ctx t t') ∧
    (∀ m record, s.message.get m = some record → ∃ t ∈ h, ∃ request first,
      Records t request first ∧ request.message.ref = m ∧ Leads (some first) (some record)) ∧
    (∀ t ∈ h, ∀ request record failure, Records t request record →
      record.verdict = .refused failure → answer ctx t = some (.error (thrownAgain failure))) ∧ h.Pairwise fun t t' =>
      (∀ m slot slot', Writes t.before.log t.after.log slot m → ¬ Writes t'.before.log t'.after.log slot' m) ∧
      (∀ request record failure auth' request', Records t request record →
        record.verdict = .refused failure → Reaches ctx t'.act auth' request' →
        SameContent request request' → boundElsewhere ctx t'.before auth' request' = false →
        answer ctx t' = some (.error (thrownAgain failure))) ∧
      (∀ request record auth' request', Records t request record →
        Reaches ctx t'.act auth' request' → request'.message.ref = request.message.ref →
        ¬ SameContent request request' →
        ∃ failure, failure.code = .idConflict ∧ answer ctx t' = some (.error (.onlyne failure))) ∧
      (∀ m, Expires t.before.log t.after.log m → (∀ receipt, returned ctx t' ≠ some (m, receipt)) ∧
        ∀ slot, ¬ Writes t'.before.log t'.after.log slot m) := by
  have htk : ∀ t ∈ h, Taken ctx t := fun t ht => taken_of_mem hrun hquiet ht
  have hsafe : ∀ t ∈ h, traceSafe t.act = true := fun t ht => traceSafe_of_quiet (hquiet t ht)
  have hleads := leads_of_run hrun hsafe
  refine ⟨?_, ?_, fun m record => recorded_of_run hrun hsafe, ?_, ?_⟩
  · intro t ht m slot slot' hwr hwr'
    obtain ⟨receipt, hadm, rfl⟩ := admits_of_writes (htk t ht).change hwr
    obtain ⟨receipt', hadm', rfl⟩ := admits_of_writes (htk t ht).change hwr'
    rw [(admits_unique (htk t ht).log (htk t ht).change hadm hadm').2]
  · -- The law is symmetric, so it holds whichever of the two calls came first.
    have hpairs : h.Pairwise (SameReceipt ctx) := hleads.imp_of_mem fun ht ht' hlead =>
      same_receipt_later (htk _ ht) (htk _ ht') hlead
    refine fun t ht t' ht' => hpairs.forall_of_forall ?_ ht ht'
    intro t ht m receipt receipt' hret hret'
    cases hret.symm.trans hret'
    rfl
  · intro t ht request record failure hrecs hverd
    exact (hrecs.spec (htk t ht).log (htk t ht).safe (htk t ht).step).2 failure hverd
  · apply hleads.imp_of_mem
    intro t t' hmem hmem' hlead
    have ht := htk t hmem
    have ht' := htk t' hmem'
    refine ⟨?_, ?_, ?_, ?_⟩
    · exact fun m slot slot' => not_writes_later ht ht' hlead
    · exact fun request record failure auth' request' => refusal_repeats_later ht ht' hlead
    · exact fun request record auth' request' => other_content_conflicts_later ht ht' hlead hinj
    · exact fun m => buried_later ht ht' hlead

namespace Scenario

def sentTwice : List Call :=
  [sends "k1" (message "m1" "hello"),
    sends "k2" (message "m1" "hello") { welcoming with receiptId := "other" }]

end Scenario

open Scenario in
/-- The message sent twice is admitted once, and answered with the receipt of the first time. -/
theorem admission_at_most_once_sentTwice : ∃ h s receipt, Run (step context) {} h s ∧ s.entry.rows.length = 1 ∧
      ∃ t ∈ h, ∃ t' ∈ h, t.before.message.get ⟨"b", "m1"⟩ = none ∧ t'.before.message.get ⟨"b", "m1"⟩ ≠ none ∧
        returned context t = some (⟨"b", "m1"⟩, receipt) ∧ returned context t' = some (⟨"b", "m1"⟩, receipt) := by
  obtain ⟨h, s, hrun, hq, hone, t, ht, t', ht', hnone, hsome, hret, hret'⟩ := exists_run (step context) {} sentTwice
    (fun h s => (∀ t ∈ h, traceQuiet t.act = true) ∧ s.entry.rows.length = 1 ∧
      ∃ t ∈ h, ∃ t' ∈ h, t.before.message.get ⟨"b", "m1"⟩ = none ∧ t'.before.message.get ⟨"b", "m1"⟩ ≠ none ∧
        (returned context t).map Prod.fst = some ⟨"b", "m1"⟩ ∧
        (returned context t').map Prod.fst = some ⟨"b", "m1"⟩) (by decide)
  obtain ⟨⟨m, receipt⟩, hreturned, rfl⟩ := Option.map_eq_some_iff.mp hret
  obtain ⟨⟨m', receipt'⟩, hreturned', rfl⟩ := Option.map_eq_some_iff.mp hret'
  have hsame := (admission_at_most_once Function.injective_id hrun hq).2.1 t ht t' ht'
  obtain rfl := hsame _ receipt receipt' hreturned hreturned'
  exact ⟨h, s, receipt, hrun, hone, t, ht, t', ht', hnone, hsome, hreturned, hreturned'⟩

-- A recorded refusal is repeated even when the plan is supported by now; other content conflicts; an
-- expired message stays expired.
example :
    (execute (step Scenario.context) {}
      [Scenario.sends "k1" (Scenario.message "m1" "hello"),
        Scenario.sends "k2" (Scenario.message "m2" "hello")
          { Scenario.welcoming with supports := .ok false },
        Scenario.sends "k3" (Scenario.message "m2" "hello"),
        Scenario.sends "k4" (Scenario.message "m1" "other"),
        .expire { actor := "n" } Scenario.contactRef "2" fun _ => 200,
        Scenario.sends "k1" (Scenario.message "m1" "hello")]).map
      (fun r => r.1.map fun t => match answer Scenario.context t with
        | some (.error (.onlyne failure)) => some failure.code
        | _ => none) =
    some [none, some .unsupportedDelivery, some .unsupportedDelivery, some .idConflict, none,
      some .retryWindowExpired] := by
  decide

end Runs

end Onlyne.Messages
