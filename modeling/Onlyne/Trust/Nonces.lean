import Onlyne.Trust.Rows

/-!
# Trust: nonces

A verified statement or request consumes a nonce: its row is written in the transaction that accepts
it, and rows older than the clock skew are purged in the same transaction.  The timestamp was
checked against the clock before that transaction opened.

`nonce_accepted_once` proves that a nonce is accepted at most once in every run in which each
verification commits while its timestamp is still inside the window and a peer signs a nonce with
one timestamp only.  `replay_across_purge` shows that the first condition is needed: a request
replayed at the edge of the window is accepted a second time when another verification purges its
row between the timestamp check and the transaction.
-/

namespace Onlyne.Trust

open Foundation

def Transaction.verifies : Transaction → Option ((NodeId × String) × Int)
  | .receive value _ _ => some ((value.nodeId, exchangeNonce value.nonce), value.timestamp)
  | .authenticate actor nonce timestamp _ => some ((actor, nonce), timestamp)
  | _ => none

def Transaction.accepts (crypto : Crypto) (s : TrustStore) : Transaction → Bool
  | .receive value seeded now => (receiveTx crypto s now value seeded).isOk
  | .authenticate actor nonce timestamp now => (authenticateTx s now actor nonce timestamp).isOk
  | _ => false

/-- The nonce slot and the timestamp the transition verifies, accepted or not. -/
def verification (cfg : Config) (t : Transition Node Act) : Option ((NodeId × String) × Int) :=
  (t.act.transaction cfg t.before.now).bind Transaction.verifies

def acceptedNonce (cfg : Config) (t : Transition Node Act) : Option (NodeId × String) :=
  match t.act.transaction cfg t.before.now with
  | none => none
  | some tx =>
    if tx.accepts cfg.crypto t.before.store then tx.verifies.map Prod.fst else none

def AcceptSame (cfg : Config) (t t' : Transition Node Act) : Prop :=
  (acceptedNonce cfg t).isSome = true ∧ acceptedNonce cfg t = acceptedNonce cfg t'

instance (cfg : Config) (t t' : Transition Node Act) : Decidable (AcceptSame cfg t t') :=
  inferInstanceAs (Decidable (_ ∧ _))

/-! ## What a transaction does to the nonce rows -/

/-- The nonce rows stay, or one verification found its slot free, purged the old rows and took it. -/
theorem Transaction.nonce_cases {cfg : Config} {n : Node} {a : Act} {s' : TrustStore}
    {tx : Transaction} (hby : tx.RunBy cfg n.now a) (h : tx.Commits cfg.crypto n.store s') :
    (tx.verifies = none ∧ s'.nonce = n.store.nonce) ∨
    ∃ slot timestamp, tx.verifies = some (slot, timestamp) ∧ n.store.nonce.get slot = none ∧
      s'.nonce = (liveNonces n.store n.now).put slot timestamp := by
  cases tx with
  | request =>
    obtain ⟨commit, hc⟩ := h
    obtain ⟨-, -, -, -, -, -, hnon⟩ := requestTx_ok hc
    exact .inl ⟨rfl, hnon⟩
  | receive =>
    obtain ⟨rfl, -⟩ := hby
    obtain ⟨entry, hc⟩ := h
    obtain ⟨-, -, -, -, m, hm, rfl⟩ := receiveTx_ok hc
    obtain ⟨hfree, rfl⟩ := consumeNonce_ok hm
    exact .inr ⟨_, _, rfl, hfree, unblock_nonce _ _⟩
  | authenticate =>
    obtain ⟨rfl, -⟩ := hby
    obtain ⟨hfree, rfl⟩ := consumeNonce_ok (authenticateTx_ok h).2
    exact .inr ⟨_, _, rfl, hfree, rfl⟩
  | revoke => exact .inl ⟨rfl, by rw [h, revokeTx_nonce]⟩
  | settle => exact .inl ⟨rfl, by rw [h, settle_nonce]⟩
  | park => exact .inl ⟨rfl, by rw [h, park_nonce]⟩
  | compare => exact .inl ⟨rfl, by rw [h, compareObligation_nonce]⟩
  | closeWindow => exact .inl ⟨rfl, by rw [h, closeWindow_nonce]⟩
  | abandonRotation => exact .inl ⟨rfl, by rw [h, abandonRotation_nonce]⟩
  | rotate =>
    obtain ⟨-, ⟨-, hs⟩ | ⟨-, hs⟩⟩ := rotateTx_ok h
    · exact .inl ⟨rfl, by rw [hs]⟩
    · exact .inl ⟨rfl, by rw [hs]⟩

theorem Transaction.commits_of_accepts {crypto : Crypto} {s : TrustStore} {tx : Transaction}
    (h : tx.accepts crypto s = true) : ∃ s', tx.Commits crypto s s' := by
  cases tx with
  | receive value seeded now =>
    cases hr : receiveTx crypto s now value seeded with
    | error => simp [accepts, hr, Except.isOk, Except.toBool] at h
    | ok r => exact ⟨r.2, r.1, hr⟩
  | authenticate actor nonce timestamp now =>
    cases hr : authenticateTx s now actor nonce timestamp with
    | error => simp [accepts, hr, Except.isOk, Except.toBool] at h
    | ok r => exact ⟨r, hr⟩
  | _ => cases h

theorem acceptedNonce_some {cfg : Config} {n n' : Node} {a : Act} {slot : NodeId × String}
    (hstep : step cfg n a = some n') (h : acceptedNonce cfg ⟨n, a, n'⟩ = some slot) :
    ∃ timestamp, verification cfg ⟨n, a, n'⟩ = some (slot, timestamp) ∧
      n.store.nonce.get slot = none ∧ n'.store.nonce.get slot = some timestamp := by
  unfold acceptedNonce at h
  split at h
  · cases h
  · next tx htx =>
    split_ifs at h with hacc
    obtain ⟨s', hcom⟩ := Transaction.commits_of_accepts hacc
    have hs' : n'.store = s' := by
      rw [step_store hstep, htx]
      exact Transaction.Commits.run_eq hcom
    rcases Transaction.nonce_cases (Act.transaction_runBy htx) hcom with
      ⟨hnone, -⟩ | ⟨slot', timestamp, hverifies, hfree, hput⟩
    · rw [hnone] at h
      cases h
    · rw [hverifies] at h
      cases h
      refine ⟨timestamp, ?_, hfree, ?_⟩
      · simp only [verification, htx, Option.bind_some, hverifies]
      · rw [hs', hput, Table.get_put_self]

theorem step_keeps_nonce {cfg : Config} {n n' : Node} {a : Act} {slot : NodeId × String}
    {timestamp : Int} (hstep : step cfg n a = some n') (hrow : n.store.nonce.get slot = some timestamp) :
    n'.store.nonce.get slot = some timestamp ∨ timestamp + clockSkewMs < n.now := by
  rcases step_transaction hstep with hsame | ⟨tx, htx, hcom⟩
  · exact .inl (by rw [hsame, hrow])
  · rcases Transaction.nonce_cases (Act.transaction_runBy htx) hcom with
      ⟨-, hsame⟩ | ⟨slot', timestamp', -, hfree, hput⟩
    · exact .inl (by rw [hsame, hrow])
    · have hne : slot ≠ slot' := by
        rintro rfl
        rw [hrow] at hfree
        cases hfree
      by_cases hold : timestamp < n.now - clockSkewMs
      · exact .inr (by omega)
      · left
        rw [hput, Table.get_put_ne _ _ hne, liveNonces, Table.get_deleteWhere, hrow]
        simp [Option.filter, hold]

/-! ## Runs -/

/-- The clock does not go back, and a verification is presented with the timestamp `stamp` its peer
signs this nonce with, in a transaction that runs before the timestamp leaves the window. -/
@[mk_iff]
structure InWindow (cfg : Config) (stamp : NodeId × String → Int) (t : Transition Node Act) : Prop where
  clock : t.before.now ≤ t.after.now
  signed : ∀ v ∈ verification cfg t, v.2 = stamp v.1
  window : ∀ v ∈ verification cfg t, t.before.now ≤ v.2 + clockSkewMs

instance (cfg : Config) (stamp : NodeId × String → Int) (t : Transition Node Act) : Decidable (InWindow cfg stamp t) :=
  decidable_of_iff _ (inWindow_iff cfg stamp t).symm

/-- **Single use of nonces.**  In every run with a monotone clock in which every verification commits
inside its window, and in which peers do not sign one nonce with two timestamps, no nonce is
accepted twice. -/
theorem nonce_accepted_once {cfg : Config} {start n : Node} {h : List (Transition Node Act)}
    {stamp : NodeId × String → Int} (hrun : Run (step cfg) start h n)
    (hwindow : ∀ t ∈ h, InWindow cfg stamp t) : h.Pairwise fun t t' => ¬ AcceptSame cfg t t' := by
  -- An accepted nonce leaves its row behind until its timestamp is out of the window.
  refine hrun.pairwise_of (I := fun _ => True) (C := InWindow cfg stamp)
    (P := fun t n => ∀ slot, acceptedNonce cfg t = some slot →
      n.store.nonce.get slot = some (stamp slot) ∨ stamp slot + clockSkewMs < n.now)
    hwindow trivial (fun _ _ _ _ _ _ => trivial) ?_ ?_ ?_
  · intro s a s' _ hstep hC slot hacc
    obtain ⟨timestamp, hver, -, hrow⟩ := acceptedNonce_some hstep hacc
    have hstamp : timestamp = stamp slot := hC.signed _ hver
    exact .inl (by rw [hrow, hstamp])
  · intro t s a s' _ hP hstep hC slot hacc
    have hclock : s.now ≤ s'.now := hC.clock
    rcases hP slot hacc with hrow | hgone
    · rcases step_keeps_nonce hstep hrow with hkept | hleft
      · exact .inl hkept
      · exact .inr (by omega)
    · exact .inr (by omega)
  · rintro t s a s' - hP hstep hC ⟨hsome, hsame⟩
    obtain ⟨slot, hacc⟩ := Option.isSome_iff_exists.mp hsome
    rw [hacc] at hsame
    obtain ⟨timestamp, hver, hfree, -⟩ := acceptedNonce_some hstep hsame.symm
    have hinside : s.now ≤ timestamp + clockSkewMs := hC.window _ hver
    have hstamp : timestamp = stamp slot := hC.signed _ hver
    rcases hP slot hacc with hrow | hgone
    · rw [hrow] at hfree
      cases hfree
    · omega

namespace Scenario

/-- A request signed by `b` for the node `a`. -/
def bobRequests (nonce : String) (timestamp : Int) : SignedRequest :=
  let payload : RequestPayload :=
    { actor := some "b", target := "a", method := "GET", path := "/", digest := ""
      timestamp := toString timestamp, nonce := nonce }
  { actor := "b", timestamp := timestamp, nonce := nonce
    signature := crypto.sign "kb" (.request payload), payload := payload }

/-- A request is accepted, and a copy of it is refused inside the window. -/
def replayRefused : List Act :=
  acceptedInvitation ++
    [.authenticate (bobRequests "r1" 0), .advance (.authenticate "b" "r1" 0) .go,
      .authenticate (bobRequests "r1" 0), .advance (.authenticate "b" "r1" 0) .go]

/-- A request is accepted; a copy passes the timestamp check at the end of the window; one
millisecond later another request is accepted, which purges the nonce of the first; then the copy
commits. -/
def replayAcrossPurge : List Act :=
  acceptedInvitation ++
    [.authenticate (bobRequests "r1" 0), .advance (.authenticate "b" "r1" 0) .go,
      .clock 300000, .authenticate (bobRequests "r1" 0), .clock 300001,
      .authenticate (bobRequests "r2" 300001), .advance (.authenticate "b" "r2" 300001) .go,
      .advance (.authenticate "b" "r1" 0) .go]

end Scenario

open Scenario in
/-- Inside the window the copy of a request is refused. -/
theorem nonce_accepted_once_replayRefused : ∃ h n, Run (step (config "a")) (Node.init "ka" [] 0) h n ∧
      (∃ t ∈ h, acceptedNonce (config "a") t = some ("b", "r1")) ∧
      h.Pairwise fun t t' => ¬ AcceptSame (config "a") t t' := by
  obtain ⟨h, n, hrun, hp⟩ := exists_run (step (config "a")) (Node.init "ka" [] 0) replayRefused
    (fun h _ => (∃ t ∈ h, acceptedNonce (config "a") t = some ("b", "r1")) ∧
      ∀ t ∈ h, InWindow (config "a") (fun _ => 0) t) (by decide)
  exact ⟨h, n, hrun, hp.1, nonce_accepted_once hrun hp.2⟩

open Scenario in
/-- A replayed request is accepted a second time: the clock is monotone, the peer signs every nonce
with one timestamp, and the same nonce is accepted twice. -/
theorem replay_across_purge : ∃ h n, Run (step (config "a")) (Node.init "ka" [] 0) h n ∧
      (∀ t ∈ h, t.before.now ≤ t.after.now) ∧ (∀ t ∈ h, ∀ v ∈ verification (config "a") t,
        v.2 = if v.1 = ("b", "r2") then 300001 else 0) ∧ ¬ h.Pairwise fun t t' => ¬ AcceptSame (config "a") t t' := by
  exact exists_run _ _ replayAcrossPurge _ (by decide)

end Onlyne.Trust
