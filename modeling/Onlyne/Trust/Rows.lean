import Onlyne.Trust.Transactions

/-!
# Trust: the table of RFC 0017 §3.2 and the key history

A trust row is rebuilt from different inputs by a local approval, a received statement and a
revocation.  Two laws of its fields over whole runs:

- the stored state and the two approval bits are one of the four rows of the RFC's table, as long
  as no peer withdraws an approval this node never answered (`rows_inTable_iff`);
- the recorded previous fingerprints only grow, as long as the owner does not confirm a peer with
  recorded fingerprints again (`history_grows_iff`).

Both laws fail at the step the condition names, and only there.
-/

namespace Onlyne.Trust

open Foundation List Option

/-! ## The phase table -/

/-- The stored state and approval bits of RFC 0017 §3.2. -/
def phaseTable : List (TrustState × Bool × Bool) :=
  [(.pending, true, false), (.pending, false, true), (.trusted, true, true), (.revoked, false, false)]

def InTable (row : TrustEntry) : Prop :=
  (row.state, row.localApproved, row.remoteApproved) ∈ phaseTable

instance (row : TrustEntry) : Decidable (InTable row) :=
  inferInstanceAs (Decidable (_ ∈ phaseTable))

def RowsInTable (s : TrustStore) : Prop := ∀ r ∈ s.trust.rows, InTable r.2

instance (s : TrustStore) : Decidable (RowsInTable s) :=
  inferInstanceAs (Decidable (∀ r ∈ s.trust.rows, InTable r.2))

variable {s s' : TrustStore} {now : Int} {value : TrustStatement} {seeded : Bool} {crypto : Crypto}
  {cfg : Config}

theorem rowsInTable_iff : RowsInTable s ↔ ∀ node row, s.trust.get node = some row → InTable row := by
  constructor
  · intro hin node row hrow
    exact hin (node, row) (Table.mem_rows.mpr hrow)
  · rintro hin ⟨node, row⟩ hrow
    exact hin node row (Table.mem_rows.mp hrow)

/-! ### The rows each transaction writes -/

theorem requestEntry_inTable {before : Option TrustEntry} {peer : KeyIdentity}
    (hpin : pinnedElsewhere before peer = false) (hbef : ∀ row, before = some row → InTable row) :
    InTable (requestEntry before peer now) := by
  cases before with
  | none => simp [InTable, phaseTable, requestEntry, mutualApproval]
  | some row =>
    have hrow := hbef row rfl
    simp only [InTable, phaseTable, mem_cons, Prod.mk.injEq, not_mem_nil, or_false] at hrow
    simp only [pinnedElsewhere, Bool.and_eq_false_imp, decide_eq_true_eq, decide_eq_false_iff_not] at hpin
    rcases hrow with ⟨hs, hl, hr⟩ | ⟨hs, hl, hr⟩ | ⟨hs, hl, hr⟩ | ⟨hs, hl, hr⟩ <;>
      by_cases hkey : row.publicKey = peer.publicKey <;>
      simp_all [InTable, phaseTable, requestEntry, mutualApproval]

/-- A received statement writes a row of the table unless neither side approves. -/
theorem receiveEntry_inTable {previous : Option TrustEntry} {fingerprint : Fingerprint} :
    InTable (receiveEntry previous value fingerprint seeded now) ↔ value.approved = true ∨ seeded = true ∨
        (previous.map TrustEntry.localApproved).getD false = true := by
  generalize hl : (previous.map TrustEntry.localApproved).getD false = approvedBefore
  cases ha : value.approved <;> cases seeded <;> cases approvedBefore <;>
    simp [InTable, phaseTable, receiveEntry, ha, hl]

theorem revokedEntry_inTable (row : TrustEntry) : InTable (revokedEntry row) := by
  simp [InTable, phaseTable, revokedEntry]

/-! ### Withdrawals -/

def unansweredRow : Option TrustEntry → Bool
  | none => false
  | some row => row.state ≠ .revoked && !row.localApproved

/-- The statement takes back an approval: it does not approve, it is the first use of its nonce, no
unproven key change stops it, and it is about to be recorded on a row that neither the owner nor a
seed approved. -/
def withdraws (crypto : Crypto) (s : TrustStore) (value : TrustStatement) (seeded : Bool) : Bool :=
  !value.approved && !seeded && unansweredRow (s.trust.get value.nodeId) &&
    !unprovenChange crypto (s.trust.get value.nodeId) value &&
    (s.nonce.get (value.nodeId, exchangeNonce value.nonce)).isNone

/-- The transition runs the transaction of `receive` on a withdrawal. -/
def recordsWithdrawal (cfg : Config) (t : Transition Node Act) : Bool :=
  match t.act.transaction cfg t.before.now with
  | some (.receive value seeded _) => withdraws cfg.crypto t.before.store value seeded
  | _ => false

theorem receiveTx_of_withdraws (now : Int) (h : withdraws crypto s value seeded = true) :
    ∃ entry s', receiveTx crypto s now value seeded = .ok (entry, s') ∧ ¬ InTable entry := by
  simp only [withdraws, Bool.and_eq_true, Bool.not_eq_eq_eq_not, Bool.not_true, isNone_iff_eq_none] at h
  obtain ⟨⟨⟨⟨happr, hseed⟩, hrow⟩, hprov⟩, hunused⟩ := h
  cases hprev : s.trust.get value.nodeId with
  | none => simp [hprev, unansweredRow] at hrow
  | some =>
    simp only [hprev, unansweredRow, ne_eq, Bool.and_eq_true, decide_eq_true_eq,
      Bool.not_eq_eq_eq_not, Bool.not_true] at hrow
    rw [hprev] at hprov
    simp only [receiveTx, consumeNonce, hunused, bind, Except.bind, hprev, revokedRow, hprov]
    simp [hrow, receiveEntry_inTable, happr, hseed]

/-- A received statement is recorded as a row of the table unless it is a withdrawal. -/
theorem withdraws_of_not_inTable {entry : TrustEntry}
    (h : receiveTx crypto s now value seeded = .ok (entry, s')) (hout : ¬ InTable entry) :
    withdraws crypto s value seeded = true := by
  obtain ⟨hrev, hfst, hprov, rfl, m, hconsume, -⟩ := receiveTx_ok h
  rw [receiveEntry_inTable] at hout
  have hunused := (consumeNonce_ok hconsume).1
  cases hprev : s.trust.get value.nodeId with
  | none => exact absurd (.inl (hfst (by rw [hprev]; rfl))) hout
  | some row =>
    have hst : row.state ≠ .revoked := by simpa [hprev, revokedRow] using hrev
    simp only [hprev, map_some, getD_some, not_or, Bool.not_eq_true] at hout
    rw [hprev] at hprov
    simp [withdraws, unansweredRow, hprev, hout, hst, hprov, hunused]

/-! ### Runs -/

/-- From rows of the table, one act leaves rows of the table exactly when it records no
withdrawal. -/
theorem step_rowsInTable_iff {n n' : Node} {a : Act} (hin : RowsInTable n.store)
    (hstep : step cfg n a = some n') : RowsInTable n'.store ↔ recordsWithdrawal cfg ⟨n, a, n'⟩ = false := by
  constructor
  · intro hin'
    rw [← Bool.not_eq_true]
    intro hwd
    unfold recordsWithdrawal at hwd
    split at hwd
    · next value seeded now htx =>
      obtain ⟨entry, s', hok, hout⟩ := receiveTx_of_withdraws now hwd
      obtain ⟨-, -, -, -, m, -, hput⟩ := receiveTx_ok hok
      have hs' : n'.store = s' := by
        simp only [step_store hstep, htx, afterTransaction, Transaction.run, hok]
      have htr : n'.store.trust = n.store.trust.put value.nodeId entry := by
        rw [hs', hput, unblock_trust]
      exact hout (rowsInTable_iff.mp hin' value.nodeId entry (by rw [htr, Table.get_put_self]))
    · cases hwd
  · intro hkeep
    have hrows := rowsInTable_iff.mp hin
    refine rowsInTable_iff.mpr fun node row hrow => ?_
    cases step_row hstep node with
    | same kept => exact hrows node row (kept ▸ hrow)
    | request _ committed written =>
      cases written.symm.trans hrow
      exact requestEntry_inTable (requestTx_ok committed).1 fun row hrow => hrows _ row hrow
    | receive run committed written =>
      cases written.symm.trans hrow
      obtain ⟨-, -, -, rfl, -⟩ := receiveTx_ok committed
      by_contra hout
      have hwd := withdraws_of_not_inTable committed hout
      simp [recordsWithdrawal, run, hwd] at hkeep
    | revoke _ _ written =>
      cases written.symm.trans hrow
      exact revokedEntry_inTable _

theorem rowsInTable_init (own : PrivateKey) (seeds : List TrustSeed) (now : Int) :
    RowsInTable (Node.init own seeds now).store := by
  rw [rowsInTable_iff]
  intro node row hrow
  cases hrow

/-- **The trust row table.**  In every run of a node, the stored rows are rows of the table after
every act exactly when no act records a withdrawal on a row that was never approved locally. -/
theorem rows_inTable_iff {cfg : Config} {own : PrivateKey} {seeds : List TrustSeed} {now : Int}
    {h : List (Transition Node Act)} {n : Node} (hrun : Run (step cfg) (Node.init own seeds now) h n) :
    (∀ t ∈ h, RowsInTable t.after.store) ↔ ∀ t ∈ h, recordsWithdrawal cfg t = false :=
  hrun.forall_after_iff (I := fun n => RowsInTable n.store)
    (C := fun t => recordsWithdrawal cfg t = false) (rowsInTable_init own seeds now)
    fun _ _ _ hin hstep => step_rowsInTable_iff hin hstep

namespace Scenario

/-- A statement of `b` to the node `a`. -/
def bobStates (approved : Bool) (nonce : String) : TrustStatement :=
  stated "b" "kb" "a" "ka" approved nonce 0

/-- `b` invites `a`, and `a` accepts. -/
def acceptedInvitation : List Act :=
  [.introduce (bobStates true "n1"), .advance (.receive (bobStates true "n1") false) .go,
    .request "b" "fp-kb" (identity "b" "kb"),
    .advance (.request (identity "b" "kb") "fp-ka") (.id "id1")]

/-- `b` invites `a` and withdraws before `a` answers. -/
def withdrawnInvitation : List Act :=
  [.introduce (bobStates true "n1"), .advance (.receive (bobStates true "n1") false) .go,
    .introduce (bobStates false "n2"), .advance (.receive (bobStates false "n2") false) .go]

end Scenario

open Scenario in
/-- An accepted invitation keeps to the table. -/
theorem rows_inTable_acceptedInvitation : ∃ h n, Run (step (config "a")) (Node.init "ka" [] 0) h n ∧ h.length = 4 ∧
      ∀ t ∈ h, RowsInTable t.after.store := by
  obtain ⟨h, n, hrun, hp⟩ := exists_run (step (config "a")) (Node.init "ka" [] 0) acceptedInvitation
    (fun h _ => h.length = 4 ∧ ∀ t ∈ h, recordsWithdrawal (config "a") t = false) (by decide)
  exact ⟨h, n, hrun, hp.1, (rows_inTable_iff hrun).mpr hp.2⟩

/-- A withdrawn invitation leaves a pending row that neither side approves. -/
theorem withdrawnInvitation_leaves_table :
    ∃ h n, Run (step (Scenario.config "a")) (Node.init "ka" [] 0) h n ∧ ¬ RowsInTable n.store := by
  exact exists_run _ _ Scenario.withdrawnInvitation _ (by decide)

/-! ## The key history -/

/-- The previous fingerprints the row of `node` records. -/
def recordedKeys (s : TrustStore) (node : NodeId) : List Fingerprint :=
  match s.trust.get node with
  | none => []
  | some row => row.previousKeys

/-- The transition confirms a peer whose row records previous fingerprints, under the key the row
pins or after a revocation. -/
def reconfirms (cfg : Config) (t : Transition Node Act) : Bool :=
  match t.act.transaction cfg t.before.now with
  | some (.request peer _ _ _) =>
    recordedKeys t.before.store peer.nodeId ≠ [] &&
      !pinnedElsewhere (t.before.store.trust.get peer.nodeId) peer
  | _ => false

theorem recordedKeys_receiveEntry (s : TrustStore) (value : TrustStatement)
    (fingerprint : Fingerprint) (seeded : Bool) (now : Int) : recordedKeys s value.nodeId <+:
      (receiveEntry (s.trust.get value.nodeId) value fingerprint seeded now).previousKeys := by
  unfold recordedKeys
  cases hprev : s.trust.get value.nodeId with
  | none => exact nil_prefix
  | some row =>
    by_cases hkey : row.publicKey = value.publicKey
    · simp [receiveEntry, TrustEntry.previousKeys, hkey]
    · simp [receiveEntry, TrustEntry.previousKeys, hkey]

/-- One act extends the recorded fingerprints of every peer exactly when it does not confirm a peer
with recorded fingerprints. -/
theorem step_recordedKeys_iff {n n' : Node} {a : Act} (hstep : step cfg n a = some n') :
    (∀ node, recordedKeys n.store node <+: recordedKeys n'.store node) ↔ reconfirms cfg ⟨n, a, n'⟩ = false := by
  constructor
  · intro hgrow
    rw [← Bool.not_eq_true]
    intro hconf
    unfold reconfirms at hconf
    split at hconf
    · next peer own id now htx =>
      simp only [ne_eq, Bool.and_eq_true, decide_eq_true_eq, Bool.not_eq_eq_eq_not, Bool.not_true] at hconf
      obtain ⟨hkeys, hpin⟩ := hconf
      obtain ⟨commit, s', hok⟩ := requestTx_eq_ok now own id hpin
      have hs' : n'.store = s' := by
        simp only [step_store hstep, htx, afterTransaction, Transaction.run, hok]
      obtain ⟨-, -, -, hput, -⟩ := requestTx_ok hok
      have hnode := hgrow peer.nodeId
      -- The written row records nothing.
      have haft : recordedKeys n'.store peer.nodeId = [] := by
        simp [recordedKeys, hs', hput, requestEntry, TrustEntry.previousKeys]
      rw [haft] at hnode
      exact hkeys (prefix_nil.mp hnode)
    · cases hconf
  · intro hkeep node
    cases step_row hstep node with
    | same row =>
      unfold recordedKeys
      exact row ▸ prefix_rfl
    | @request peer _ _ _ _ run committed =>
      have hnil : recordedKeys n.store peer.nodeId = [] := by
        simpa [reconfirms, run, (requestTx_ok committed).1] using hkeep
      rw [hnil]
      exact nil_prefix
    | receive _ _ row =>
      rw [show recordedKeys n'.store _ = _ by rw [recordedKeys, row]]
      exact recordedKeys_receiveEntry ..
    | revoke _ stored row => simp [recordedKeys, stored, row, revokedEntry, TrustEntry.previousKeys]

/-- **The key history is append-only.**  In every run of a node, every act extends the recorded
fingerprints of every peer exactly when no act confirms a peer that has recorded fingerprints. -/
theorem history_grows_iff {cfg : Config} {start n : Node} {h : List (Transition Node Act)}
    (hrun : Run (step cfg) start h n) :
    (∀ t ∈ h, ∀ node, recordedKeys t.before.store node <+: recordedKeys t.after.store node) ↔
      ∀ t ∈ h, reconfirms cfg t = false :=
  forall₂_congr fun _ ht => step_recordedKeys_iff (hrun.step_of_mem ht)

namespace Scenario

/-- `b` moves to the key `kb2`, proven by `kb`. -/
def bobRotates : TrustStatement := stated "b" "kb2" "a" "ka" true "n2" 0 none (some "kb")

/-- `a` and `b` trust each other, and `b` rotates its key. -/
def rotatedPeer : List Act :=
  acceptedInvitation ++ [.introduce bobRotates, .advance (.receive bobRotates false) .go]

/-- The owner of `a` confirms the rotated key again. -/
def reconfirmedPeer : List Act :=
  rotatedPeer ++ [.request "b" "fp-kb2" (identity "b" "kb2"),
    .advance (.request (identity "b" "kb2") "fp-ka") (.id "id2")]

end Scenario

open Scenario in
/-- A rotation of an established peer is recorded. -/
theorem history_grows_rotatedPeer : ∃ h n, Run (step (config "a")) (Node.init "ka" [] 0) h n ∧
      recordedKeys n.store "b" = ["fp-kb"] ∧
      ∀ t ∈ h, ∀ node, recordedKeys t.before.store node <+: recordedKeys t.after.store node := by
  obtain ⟨h, n, hrun, hp⟩ := exists_run (step (config "a")) (Node.init "ka" [] 0) rotatedPeer
    (fun h n => recordedKeys n.store "b" = ["fp-kb"] ∧ ∀ t ∈ h, reconfirms (config "a") t = false) (by decide)
  exact ⟨h, n, hrun, hp.1, (history_grows_iff hrun).mpr hp.2⟩

/-- Confirming an established peer again drops its recorded fingerprint: a run without revocations
takes an act from a trusted row that records a previous key to a trusted row that records none. -/
theorem reconfirmedPeer_drops_history : ∃ h n, Run (step (Scenario.config "a")) (Node.init "ka" [] 0) h n ∧
      (∀ t ∈ h, t.act ≠ .revoke "b") ∧ ∃ t ∈ h, trustedRow (t.before.store.trust.get "b") = true ∧
        trustedRow (t.after.store.trust.get "b") = true ∧
        recordedKeys t.before.store "b" = ["fp-kb"] ∧ recordedKeys t.after.store "b" = [] := by
  exact exists_run _ _ Scenario.reconfirmedPeer _ (by decide)

end Onlyne.Trust
