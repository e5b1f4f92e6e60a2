import Onlyne.Trust.Attempts

/-!
# Trust: an unanswered approval keeps its obligation

A local approval owes the peer a statement until the peer's reply to the current attempt is processed
or the owner revokes the peer.  `unanswered` computes from the history which approvals are still
open.  `approval_owed` proves that each of them has an obligation row, in every run, crashes
included, in which no redrive pass does one of three things:

- abandon a rotation whose statement stands in for an unanswered approval;
- delete an approval because it was signed by a previous key;
- delete an obligation towards a peer that was confirmed again since the pass found it revoked.

`abandoned_rotation_loses_approval` shows the first of them lose an approval.
-/

namespace Onlyne.Trust

open Foundation List

/-! ## Unanswered approvals -/

section

variable (cfg : Config) (h : List (Transition Node Act)) (node : NodeId) (t : Transition Node Act)

/-- The transition commits a local approval of `node` that owes a statement. -/
def approves : Bool :=
  match t.act.transaction cfg t.before.now with
  | some (.request peer _ _ _) =>
    peer.nodeId = node && !pinnedElsewhere (t.before.store.trust.get node) peer &&
      freshApproval (t.before.store.trust.get node) peer
  | _ => false

/-- The stored obligation towards `node` carries `nonce`. -/
def owesNonce (s : TrustStore) (node : NodeId) (nonce : String) : Bool :=
  match s.outbound.get node with
  | none => false
  | some owed => owed.nonce = nonce

/-- The transition processes a reply of `node` to the current attempt, or revokes `node`. -/
def closes : Bool :=
  match t.act.transaction cfg t.before.now with
  | some (.settle peer nonce) => peer = node && owesNonce t.before.store node nonce
  | some (.revoke peer) => peer = node
  | _ => false

/-- Whether the approval of `node` is unanswered after one more transition. -/
def unansweredAfter (open_ : Bool) (t : Transition Node Act) : Bool :=
  approves cfg node t || (open_ && !closes cfg node t)

/-- The approval of `node` is unanswered at the end of the history. -/
def unanswered : Bool :=
  h.foldl (unansweredAfter cfg node) false

theorem unanswered_snoc (node : NodeId) :
    unanswered cfg (h ++ [t]) node = unansweredAfter cfg node (unanswered cfg h node) t := by
  simp [unanswered]

/-! ## The steps that lose an approval -/

def goneRow (entry : Option TrustEntry) : Bool := entry.isNone || revokedRow entry

/-- With the history `past`, the transition drops the obligation of an approval: it abandons a
rotation that carries an unanswered approval, deletes an approval of a previous key, or deletes an
obligation although the peer is not revoked any more. -/
def losesApproval (past : List (Transition Node Act)) (t : Transition Node Act) : Bool :=
  match t.act with
  | .advance .redriveAbandon .go =>
    t.before.store.outbound.rows.any fun row =>
      row.2.kind = .rotation && unanswered cfg past row.1
  | .advance (.redriveDelete .stale owed) .go => stillOwed t.before.store owed
  | .advance (.redriveDelete .gone owed) .go =>
    stillOwed t.before.store owed && !goneRow (t.before.store.trust.get owed.nodeId)
  | _ => false

end

/-! ## An approved peer is not revoked -/

theorem receiveEntry_not_revoked (previous : Option TrustEntry) (value : TrustStatement)
    (fingerprint : Fingerprint) (seeded : Bool) (now : Int) :
    (receiveEntry previous value fingerprint seeded now).state ≠ .revoked := by
  simp only [receiveEntry]
  split_ifs <;> simp

theorem requestEntry_not_revoked (before : Option TrustEntry) (peer : KeyIdentity) (now : Int) :
    (requestEntry before peer now).state ≠ .revoked := by
  simp only [requestEntry]
  split_ifs <;> simp

variable {cfg : Config} {n n' : Node} {a : Act} {node : NodeId} {h : List (Transition Node Act)}
  {seeds : List TrustSeed} {own : PrivateKey} {now : Int}

theorem step_keeps_row (hstep : step cfg n a = some n') (hrow : goneRow (n.store.trust.get node) = false)
    (hact : a ≠ .revoke node) : goneRow (n'.store.trust.get node) = false := by
  cases step_row hstep node with
  | same row => rwa [row]
  | request _ _ row => simp [row, goneRow, revokedRow, requestEntry_not_revoked]
  | receive _ _ row => simp [row, goneRow, revokedRow, receiveEntry_not_revoked]
  | revoke run => exact absurd (Act.transaction_runBy run) hact

theorem step_approves (hstep : step cfg n a = some n') (happr : approves cfg node ⟨n, a, n'⟩ = true) :
    goneRow (n'.store.trust.get node) = false ∧ (n'.store.outbound.get node).isSome = true := by
  unfold approves at happr
  split at happr
  · next peer own id now htx =>
    simp only [Bool.and_eq_true, decide_eq_true_eq, Bool.not_eq_eq_eq_not, Bool.not_true] at happr
    obtain ⟨⟨rfl, hpin⟩, hfr⟩ := happr
    obtain ⟨commit, s', hok⟩ := requestTx_eq_ok now own id hpin
    have hs' : n'.store = s' := by
      simp only [step_store hstep, htx, afterTransaction, Transaction.run, hok]
    obtain ⟨-, hcfresh, hcrotating, htr, hout, -, -⟩ := requestTx_ok hok
    refine ⟨?_, ?_⟩
    · rw [hs', htr, Table.get_put_self]
      simp [goneRow, revokedRow, requestEntry_not_revoked]
    · rw [hs', hout, hcfresh, hfr, hcrotating]
      -- Without an obligation of its own, the approval relies on the rotation statement.
      cases hrot : rotatingTo n.store peer.nodeId with
      | false => simp
      | true =>
        cases hrow : n.store.outbound.get peer.nodeId with
        | none => simp [rotatingTo, hrow] at hrot
        | some => simp [hrow]
  · cases happr

/-! ## A pass never deletes an orphan -/

theorem step_stored_nonce {owed : TrustOutbound} (hstep : step cfg n a = some n')
    (hrow : n'.store.outbound.get node = some owed) :
    (∃ owed', n.store.outbound.get node = some owed' ∧ owed'.nonce = owed.nonce) ∨ owed.nonce ∈ a.drawn := by
  rcases step_slot hstep node with hsame | ⟨tx, -, hby, hslot⟩
  · exact .inl ⟨owed, by rw [← hsame, hrow], rfl⟩
  · rw [hrow] at hslot
    generalize haft : some owed = after at hslot
    cases hslot with
    | same => exact .inl ⟨owed, haft.symm, rfl⟩
    | approve =>
      cases haft
      obtain ⟨-, rfl⟩ := hby
      exact .inr (mem_singleton_self _)
    | mark _ row =>
      cases haft
      exact .inl ⟨_, row, rfl⟩
    | replace still =>
      cases haft
      obtain ⟨current, hcur, hnon, -⟩ := stillOwed_iff.mp still
      rcases hby with ⟨rfl, -⟩ | ⟨entry, live, id, rfl, rfl⟩
      · exact .inl ⟨current, hcur, hnon⟩
      · exact .inr (mem_singleton_self _)
    | rotate _ member =>
      cases haft
      obtain ⟨-, next, listed, ids, -, rfl, rfl⟩ := hby
      exact .inr (of_mem_zip member).2
    | _ => cases haft

theorem window_rotation (hrun : Run (step cfg) (Node.init own seeds now) h n) :
    ∀ owed entry key, Task.redriveWindow owed entry key ∈ n.tasks → owed.kind = .rotation := by
  refine hrun.invariant (I := fun n => ∀ owed entry key,
    Task.redriveWindow owed entry key ∈ n.tasks → owed.kind = .rotation) ?_ ?_
  · intro owed entry key htask
    cases htask
  · intro s a s' hI hstep owed entry key htask
    rcases step_tasks hstep htask with hold | hnew
    · exact hI owed entry key hold
    · cases hnew with
      | advance _ resumes =>
        cases resumes with
        | ownRotation kind => exact kind

/-- The obligation a pass takes for an orphan is not stored any more: the window closes only after
its last statement is gone, and a nonce does not come back. -/
theorem orphan_gone (hrun : Run (step cfg) (Node.init own seeds now) h n) (hfr : FreshIds h) :
    ∀ owed, Task.redriveDelete .orphan owed ∈ n.tasks →
      ∀ node row, n.store.outbound.get node = some row → row.nonce ≠ owed.nonce := by
  induction hrun with
  | nil =>
    intro owed htask
    cases htask
  | @snoc h m m' a hprev hstep ih =>
    have hatt := attempts_of_run hprev hfr.of_append
    intro owed htask node row hrow hnon
    rcases step_tasks hstep htask with hold | hnew
    · rcases step_stored_nonce hstep hrow with ⟨row', hrow', hnon'⟩ | hdrawn
      · exact ih hfr.of_append owed hold node row' hrow' (hnon'.trans hnon)
      · have hkn := hatt.drawn owed (.inr ⟨_, hold, rfl⟩)
        exact hfr.not_mem hdrawn (hnon ▸ hkn)
    · cases hnew with
      | advance waiting resumes =>
        cases resumes with
        | orphan closed =>
          have hst : m'.store = m.store := step_store hstep
          rw [hst] at hrow
          have hsame := hatt.unique row owed (.inl ⟨node, hrow⟩) (.inr ⟨_, waiting, rfl⟩) hnon
          have hkind : row.kind = .rotation := by
            have hkinds : (attempt row).kind = (attempt owed).kind := by rw [hsame]
            have howed : owed.kind = .rotation := window_rotation hprev _ _ _ waiting
            exact hkinds.trans howed
          have hopen := rotation_covered hprev ⟨node, row, hrow, hkind⟩
          rw [closed] at hopen
          cases hopen

/-! ## Durability -/

/-- **Obligations are durable.**  In every run with fresh identifiers in which no redrive pass loses an
approval, every unanswered approval has an obligation row, and its peer is not revoked. -/
theorem approval_owed {cfg : Config} {own : PrivateKey} {seeds : List TrustSeed} {now : Int}
    {h : List (Transition Node Act)} {n : Node}
    (hrun : Run (step cfg) (Node.init own seeds now) h n) (hfresh : FreshIds h)
    (hkeep : EveryStep (fun past t => losesApproval cfg past t = false) h) (node : NodeId)
    (hopen : unanswered cfg h node = true) :
    (n.store.outbound.get node).isSome = true ∧ goneRow (n.store.trust.get node) = false := by
  induction hrun with
  | nil => cases hopen
  | @snoc h m m' a hprev hstep ih =>
    obtain ⟨hkeep₁, hkp⟩ := everyStep_snoc.mp hkeep
    rw [unanswered_snoc, unansweredAfter, Bool.or_eq_true, Bool.and_eq_true] at hopen
    rcases hopen with happr | ⟨hbef, hcloses⟩
    · exact (step_approves hstep happr).symm
    · obtain ⟨hrow, hgone⟩ := ih hfresh.of_append hkeep₁ hbef
      have hrev : a ≠ .revoke node := by
        rintro rfl
        simp [closes, Act.transaction] at hcloses
      refine ⟨?_, step_keeps_row hstep hgone hrev⟩
      rcases step_slot hstep node with hsame | ⟨tx, htx, hby, hslot⟩
      · rwa [hsame]
      · generalize m'.store.outbound.get node = after at hslot ⊢
        cases hslot with
        | same => exact hrow
        | approve => rfl
        | mark => rfl
        | replace => rfl
        | rotate => rfl
        | settle row => simp [closes, htx, owesNonce, row] at hcloses
        | revoke => exact absurd hby hrev
        | @discard owed still =>
          obtain ⟨reason, rfl⟩ := hby
          cases reason with
          | gone => simp [losesApproval, still, hgone] at hkp
          | stale => simp [losesApproval, still] at hkp
          | orphan =>
            obtain ⟨current, hcur, hnon, -⟩ := stillOwed_iff.mp still
            have hheld := mem_tasks_of_advance hstep
            exact absurd hnon (orphan_gone hprev hfresh.of_append owed hheld _ _ hcur)
        | @abandon _ owed row kind =>
          -- The pass would abandon the rotation that carries this approval.
          have hact : a = .advance .redriveAbandon .go := hby
          subst hact
          simp only [losesApproval, any_eq_false] at hkp
          have hcar := hkp (node, owed) (Table.mem_rows.mpr row)
          simp [kind, hbef] at hcar

namespace Scenario

/-- The row of `b` after a request it has not answered. -/
def bobRequested : TrustEntry :=
  { nodeId := "b", publicKey := "kb", fingerprint := "fp-kb", state := .pending
    firstSeen := 0, lastChecked := 0, localApproved := true, remoteApproved := false, baseUrl := "" }

/-- The rotation statement that replaces the approval owed to `b`. -/
def rotationForApproval : TrustOutbound := rotationObligation 0 "ka" "fp-ka2" bobRequested "r1"

/-- `a` approves `b`, which does not answer; a rotation replaces the approval in its slot, and the
process ends before the host swaps the key. -/
def rotationInterrupted : List Act :=
  [.request "b" "fp-kb" (identity "b" "kb"),
    .advance (.request (identity "b" "kb") "fp-ka") (.id "id1"),
    .rotate "ka2", .advance (.rotateList "ka" "ka2") .go,
    .advance (.rotateCommit "ka" "ka2" [bobRequested]) (.ids ["r1"]), .crash]

/-- After the restart a redrive pass abandons the rotation. -/
def rotationAbandoned : List Act :=
  rotationInterrupted ++ [.redrive, .advance (.redrive rotationForApproval) .go,
    .advance (.redriveOwn rotationForApproval bobRequested) .go,
    .advance (.redriveWindow rotationForApproval bobRequested "fp-ka") .go,
    .advance .redriveAbandon .go]

end Scenario

open Scenario in
/-- The interrupted rotation still carries the unanswered approval. -/
theorem approval_owed_rotationInterrupted : ∃ h n, Run (step (config "a")) (Node.init "ka" [] 0) h n ∧
      unanswered (config "a") h "b" = true ∧ (n.store.outbound.get "b").isSome = true := by
  obtain ⟨h, n, hrun, hfr, hopen, hkeep⟩ := exists_run (step (config "a")) (Node.init "ka" [] 0) rotationInterrupted
    (fun h _ => FreshIds h ∧ unanswered (config "a") h "b" = true ∧
      EveryStep (fun past t => losesApproval (config "a") past t = false) h) (by decide)
  exact ⟨h, n, hrun, hopen, (approval_owed hrun hfr hkeep "b" hopen).1⟩

open Scenario in
/-- An abandoned rotation loses the approval it replaced: the approval is unanswered, the peer is not
revoked, and no obligation is left. -/
theorem abandoned_rotation_loses_approval : ∃ h n, Run (step (config "a")) (Node.init "ka" [] 0) h n ∧ FreshIds h ∧
      unanswered (config "a") h "b" = true ∧
      n.store.trust.get "b" = some bobRequested ∧ n.store.outbound.get "b" = none ∧ n.tasks = [] := by
  exact exists_run _ _ rotationAbandoned _ (by decide)

end Onlyne.Trust
