import Onlyne.Trust.Calls
import Onlyne.Trust.Rows

/-!
# Trust: where a trusted key comes from

A peer's key enters a trust row by a local approval, by a first statement, by a reply and by a
proven rotation.  `Linked` is the chain a trusted key has to show: it starts at a key whose
fingerprint the owner confirmed or a seed names, and every later key is introduced by a recorded
statement that the key before it signed.

`trusted_key_pinned` proves, for every run of a node against arbitrary peers, that every trusted
row's key is linked, and that a revoked peer is trusted again only after another local approval.
-/

namespace Onlyne.Trust

open Foundation List Option

/-! ## Chains of keys -/

/-- `Linked cfg h node key`: in the history `h`, the key `key` of the peer `node` goes back to the
owner's confirmation or to a seed. -/
inductive Linked (cfg : Config) (h : List (Transition Node Act)) (node : NodeId) : PublicKey → Prop where
  -- The owner confirmed the fingerprint of the key.
  | confirmed {key} {t : Transition Node Act} {live}
      (mem : t ∈ h) (act : t.act = .request node (cfg.crypto.fingerprint key) live) : Linked cfg h node key
  -- A seed configured at the time names the fingerprint of the key.
  | seeded {key} {t : Transition Node Act} {seed : TrustSeed} (mem : t ∈ h)
      (configured : seedFor t.before.seeds node = some seed)
      (names : seed.fingerprint = cfg.crypto.fingerprint key) : Linked cfg h node key
  -- The previous key signed the recorded statement that introduces the key.
  | rotated {previous} {value : TrustStatement} {seeded}
      {t : Transition Node Act} (linked : Linked cfg h node previous) (mem : t ∈ h)
      (recorded : t.act.transaction cfg t.before.now = some (.receive value seeded t.before.now))
      (sender : value.nodeId = node) (signed : provenBy cfg.crypto previous value = true) :
      Linked cfg h node value.publicKey

variable {cfg : Config} {h : List (Transition Node Act)} {node : NodeId} {n start : Node}
  {entry : Option TrustEntry} {now : Int}

theorem Linked.mono {h' : List (Transition Node Act)} {key : PublicKey} (hsub : h ⊆ h')
    (hlink : Linked cfg h node key) : Linked cfg h' node key := by
  induction hlink with
  | confirmed mem act => exact .confirmed (hsub mem) act
  | seeded mem configured names => exact .seeded (hsub mem) configured names
  | rotated _ mem recorded sender signed ih => exact .rotated ih (hsub mem) recorded sender signed

/-! ## The invariant -/

/-- What the rows and the calls in flight remember about the history. -/
structure Pinned (cfg : Config) (h : List (Transition Node Act)) (n : Node) : Prop where
  approved : ∀ node row, n.store.trust.get node = some row → row.localApproved = true →
    Linked cfg h node row.publicKey
  trusted : ∀ node row, n.store.trust.get node = some row → row.state = .trusted →
    row.localApproved = true
  request : ∀ peer own, Task.request peer own ∈ n.tasks →
    Linked cfg h peer.nodeId peer.publicKey
  receive : ∀ value, Task.receive value true ∈ n.tasks → Linked cfg h value.nodeId value.publicKey
  reply : ∀ value nonce, Task.receiveReply value true nonce ∈ n.tasks →
    Linked cfg h value.nodeId value.publicKey

theorem pinned_init (cfg : Config) (own : PrivateKey) (seeds : List TrustSeed) (now : Int) :
    Pinned cfg [] (Node.init own seeds now) where
  approved _ _ hrow := by cases hrow
  trusted _ _ hrow := by cases hrow
  request _ _ htask := by cases htask
  receive _ htask := by cases htask
  reply _ _ htask := by cases htask

section Step

variable {cfg : Config} {h : List (Transition Node Act)} {n n' : Node} {a : Act}

section

variable (hpin : Pinned cfg h n) (hstep : step cfg n a = some n')
include hpin hstep

theorem Pinned.tasks : (∀ peer own, Task.request peer own ∈ n'.tasks →
      Linked cfg (h ++ [⟨n, a, n'⟩]) peer.nodeId peer.publicKey) ∧ (∀ value, Task.receive value true ∈ n'.tasks →
      Linked cfg (h ++ [⟨n, a, n'⟩]) value.nodeId value.publicKey) ∧
    (∀ value nonce, Task.receiveReply value true nonce ∈ n'.tasks →
      Linked cfg (h ++ [⟨n, a, n'⟩]) value.nodeId value.publicKey) := by
  have hsub : h ⊆ h ++ [⟨n, a, n'⟩] := subset_append_left ..
  have hlast : (⟨n, a, n'⟩ : Transition Node Act) ∈ h ++ [⟨n, a, n'⟩] := by simp
  have hseeded : ∀ value, receiveChecks cfg n value = .ok true →
      Linked cfg (h ++ [⟨n, a, n'⟩]) value.nodeId value.publicKey := by
    intro value hchk
    obtain ⟨hseeded, hnm⟩ := receiveChecks_ok hchk
    obtain ⟨seed, hseed⟩ := isSome_iff_exists.mp hseeded.symm
    exact .seeded hlast hseed (hnm seed hseed)
  refine ⟨?_, ?_, ?_⟩
  · intro peer own htask
    rcases step_tasks hstep htask with hold | hnew
    · exact (hpin.request peer own hold).mono hsub
    · cases hnew with
      | request checked =>
        simp only [inspected, Bool.and_eq_true, decide_eq_true_eq] at checked
        obtain ⟨⟨rfl, -⟩, hfp⟩ := checked
        exact .confirmed hlast (by rw [← hfp])
      | advance _ resumes => cases resumes
  · intro value htask
    rcases step_tasks hstep htask with hold | hnew
    · exact (hpin.receive value hold).mono hsub
    · cases hnew with
      | introduce checked => exact hseeded value checked
      | advance _ resumes => cases resumes
  · intro value nonce htask
    rcases step_tasks hstep htask with hold | hnew
    · exact (hpin.reply value nonce hold).mono hsub
    · cases hnew with
      | advance _ resumes =>
        cases resumes with
        | answer _ _ _ checked => exact hseeded value checked

/-- The row a received statement writes has a linked key if this node approves the peer. -/
theorem Pinned.receiveEntry {value : TrustStatement} {seeded : Bool}
    (htx : a.transaction cfg n.now = some (.receive value seeded now))
    (hprov : unprovenChange cfg.crypto (n.store.trust.get value.nodeId) value = false) {fingerprint : Fingerprint}
    (happr : (receiveEntry (n.store.trust.get value.nodeId) value fingerprint seeded
      now).localApproved = true) : Linked cfg (h ++ [⟨n, a, n'⟩]) value.nodeId value.publicKey := by
  have hsub : h ⊆ h ++ [⟨n, a, n'⟩] := subset_append_left ..
  obtain ⟨rfl, hact⟩ := Act.transaction_runBy htx
  cases seeded with
  | true =>
    rcases hact with rfl | ⟨nonce, rfl⟩
    · exact (hpin.receive value (mem_tasks_of_advance hstep)).mono hsub
    · exact (hpin.reply value nonce (mem_tasks_of_advance hstep)).mono hsub
  | false =>
    -- The approval is carried over from the row before, whose key is linked.
    cases hprev : n.store.trust.get value.nodeId with
    | none => simp [Onlyne.Trust.receiveEntry, hprev] at happr
    | some row =>
      simp only [Onlyne.Trust.receiveEntry, hprev, map_some, getD_some, Bool.false_or] at happr
      have hlink := (hpin.approved _ row hprev happr).mono hsub
      by_cases hkey : row.publicKey = value.publicKey
      · rwa [← hkey]
      · have hsigned : provenBy cfg.crypto row.publicKey value = true := by
          simpa [unprovenChange, hprev, hkey] using hprov
        exact .rotated (t := ⟨n, a, n'⟩) hlink (by simp) htx rfl hsigned

theorem Pinned.step : Pinned cfg (h ++ [⟨n, a, n'⟩]) n' := by
  have hsub : h ⊆ h ++ [⟨n, a, n'⟩] := subset_append_left ..
  obtain ⟨hreq, hrecv, hreply⟩ := hpin.tasks hstep
  suffices hrows : ∀ node row, n'.store.trust.get node = some row →
      (row.localApproved = true → Linked cfg (h ++ [⟨n, a, n'⟩]) node row.publicKey) ∧
      (row.state = .trusted → row.localApproved = true) from
    { approved := fun node row hrow => (hrows node row hrow).1
      trusted := fun node row hrow => (hrows node row hrow).2
      request := hreq
      receive := hrecv
      reply := hreply }
  have hold : ∀ node row, n.store.trust.get node = some row →
      (row.localApproved = true → Linked cfg (h ++ [⟨n, a, n'⟩]) node row.publicKey) ∧
      (row.state = .trusted → row.localApproved = true) := fun node row hrow =>
    ⟨fun hloc => (hpin.approved node row hrow hloc).mono hsub, hpin.trusted node row hrow⟩
  intro node row hrow
  cases step_row hstep node with
  | same kept => exact hold node row (kept ▸ hrow)
  | @request peer own _ _ _ run _ written =>
    cases written.symm.trans hrow
    obtain ⟨-, rfl⟩ := Act.transaction_runBy run
    exact ⟨fun _ => (hpin.request peer own (mem_tasks_of_advance hstep)).mono hsub, fun _ => rfl⟩
  | receive run committed written =>
    cases written.symm.trans hrow
    obtain ⟨-, -, hprov, -⟩ := receiveTx_ok committed
    refine ⟨hpin.receiveEntry hstep run hprov, ?_⟩
    intro htr
    by_contra hloc
    simp only [Onlyne.Trust.receiveEntry] at htr hloc
    simp [hloc] at htr
  | revoke _ _ written =>
    cases written.symm.trans hrow
    simp [revokedEntry]

end

end Step

theorem pinned_of_run {own : PrivateKey} {seeds : List TrustSeed}
    (hrun : Run (step cfg) (Node.init own seeds now) h n) : Pinned cfg h n :=
  hrun.induction_on (pinned_init cfg own seeds now) fun _ _ _ _ _ hpin hstep => hpin.step hstep

/-! ## Revocation -/

/-- The transition runs the transaction of a local approval of `node`. -/
def RunsRequest (cfg : Config) (node : NodeId) (t : Transition Node Act) : Prop :=
  ∃ peer own id now, t.act.transaction cfg t.before.now = some (.request peer own id now) ∧
    peer.nodeId = node

/-- The owner issues a request for `node`. -/
def IssuesRequest (node : NodeId) (t : Transition Node Act) : Prop :=
  ∃ fingerprint live, t.act = .request node fingerprint live

/-- A request for `node` is in flight. -/
def RequestInFlight (node : NodeId) (n : Node) : Prop :=
  ∃ peer own, Task.request peer own ∈ n.tasks ∧ peer.nodeId = node

theorem trustedRow_iff : trustedRow entry = true ↔ ∃ row, entry = some row ∧ row.state = .trusted := by
  cases entry <;> simp [trustedRow]

theorem not_trusted_of_revoked (h : revokedRow entry = true) : ¬ trustedRow entry = true := by
  cases entry with
  | none => simp [trustedRow]
  | some =>
    simp only [revokedRow, decide_eq_true_eq] at h
    simp [trustedRow, h]

theorem revoke_marks {n' : Node} (hstep : step cfg n (.revoke node) = some n')
    (hstor : (n.store.trust.get node).isSome = true) : revokedRow (n'.store.trust.get node) = true := by
  obtain ⟨row, hrow⟩ := isSome_iff_exists.mp hstor
  have hst : n'.store = revokeTx n.store node := step_store hstep
  rw [hst, revokeTx_trust]
  simp [markRevoked, hrow, revokedRow, revokedEntry]

theorem step_keeps_revoked {n' : Node} {a : Act} (hstep : step cfg n a = some n')
    (hrev : revokedRow (n.store.trust.get node) = true) (hoth : ¬ RunsRequest cfg node ⟨n, a, n'⟩) :
    revokedRow (n'.store.trust.get node) = true := by
  cases step_row hstep node with
  | same row => rwa [row]
  | request run => exact absurd ⟨_, _, _, _, run, rfl⟩ hoth
  | receive _ committed =>
    have hlive := (receiveTx_ok committed).1
    rw [hrev] at hlive
    cases hlive
  | revoke _ _ row => simp [row, revokedRow, revokedEntry]

/-- From a revoked row on, the row stays revoked until a local approval runs. -/
theorem revoked_until_request (hrun : Run (step cfg) start h n)
    (hrev : revokedRow (start.store.trust.get node) = true) :
    revokedRow (n.store.trust.get node) = true ∨ ∃ t ∈ h, RunsRequest cfg node t := by
  by_cases hany : ∃ t ∈ h, RunsRequest cfg node t
  · exact .inr hany
  · left
    refine hrun.invariant_of (I := fun n => revokedRow (n.store.trust.get node) = true)
      (C := fun t => ¬ RunsRequest cfg node t) (fun t ht hreq => hany ⟨t, ht, hreq⟩) hrev ?_
    intro s a s' hI hstep hoth
    exact step_keeps_revoked hstep hI hoth

theorem request_issued (hrun : Run (step cfg) start h n) (hfly : RequestInFlight node n) :
    RequestInFlight node start ∨ ∃ t ∈ h, IssuesRequest node t := by
  induction hrun with
  | nil => exact .inl hfly
  | @snoc h m m' a _ hstep ih =>
    obtain ⟨peer, own, htask, hnode⟩ := hfly
    rcases step_tasks hstep htask with hold | hnew
    · rcases ih ⟨peer, own, hold, hnode⟩ with hstart | ⟨t, ht, hissue⟩
      · exact .inl hstart
      · exact .inr ⟨t, mem_append_left _ ht, hissue⟩
    · cases hnew with
      | request checked =>
        simp only [inspected, Bool.and_eq_true, decide_eq_true_eq] at checked
        obtain ⟨⟨rfl, -⟩, -⟩ := checked
        subst hnode
        exact .inr ⟨_, mem_append_right _ (mem_singleton_self _), _, _, rfl⟩
      | advance _ resumes => cases resumes

namespace Scenario

/-- `b` approves `a` again under the same key. -/
def bobApprovesAgain : TrustStatement := bobStates true "n2"

/-- `a` and `b` trust each other, the owner of `a` revokes `b` and confirms it again, and `b`
approves again. -/
def revokedAndConfirmed : List Act :=
  acceptedInvitation ++ [.revoke "b", .request "b" "fp-kb" (identity "b" "kb"),
    .advance (.request (identity "b" "kb") "fp-ka") (.id "id2"),
    .introduce bobApprovesAgain, .advance (.receive bobApprovesAgain false) .go]

end Scenario

end Onlyne.Trust
