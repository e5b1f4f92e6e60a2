import Onlyne.Trust.Node

/-!
# Trust: what one act can do to the rows

`step_transaction` says once what an act of a node can do to the stored rows: nothing, or one
committed transaction.  The invariants of the trust rows, the nonces and the obligations are
proved against the ten transactions and never unfold the node's step function.
-/

namespace Onlyne.Trust

open Foundation

/-- The storage transactions of the trust service, with the arguments they run on. -/
inductive Transaction where
  | request (peer : KeyIdentity) (own : Fingerprint) (id : String) (now : Int)
  | receive (value : TrustStatement) (seeded : Bool) (now : Int)
  | authenticate (actor : NodeId) (nonce : String) (timestamp now : Int)
  | revoke (node : NodeId)
  | settle (node : NodeId) (nonce : String)
  | park (node : NodeId) (nonce : String) (now : Int)
  | compare (expected : TrustOutbound) (next : Option TrustOutbound)
  | closeWindow
  | abandonRotation
  | rotate (previous : PrivateKey) (fingerprint : Fingerprint) (peers : List (TrustEntry × String))
      (now : Int)

/-- `tx.Commits crypto s s'`: run on the rows `s`, the transaction commits and leaves `s'`. -/
def Transaction.Commits (crypto : Crypto) (s s' : TrustStore) : Transaction → Prop
  | .request peer own id now => ∃ commit, requestTx s now peer own id = .ok (commit, s')
  | .receive value seeded now => ∃ entry, receiveTx crypto s now value seeded = .ok (entry, s')
  | .authenticate actor nonce timestamp now => authenticateTx s now actor nonce timestamp = .ok s'
  | .revoke node => s' = revokeTx s node
  | .settle node nonce => s' = Onlyne.Trust.settle s node nonce
  | .park node nonce now => s' = Onlyne.Trust.park s now node nonce
  | .compare expected next => s' = (compareObligation s expected next).2
  | .closeWindow => s' = Onlyne.Trust.closeWindow s
  | .abandonRotation => s' = Onlyne.Trust.abandonRotation s
  | .rotate previous fingerprint peers now => rotateTx s now previous fingerprint peers = .ok s'

/-- The rows after the transaction, committed or rolled back. -/
def Transaction.run (crypto : Crypto) (s : TrustStore) : Transaction → TrustStore
  | .request peer own id now =>
    match requestTx s now peer own id with
    | .error _ => s
    | .ok (_, s') => s'
  | .receive value seeded now =>
    match receiveTx crypto s now value seeded with
    | .error _ => s
    | .ok (_, s') => s'
  | .authenticate actor nonce timestamp now =>
    match authenticateTx s now actor nonce timestamp with
    | .error _ => s
    | .ok s' => s'
  | .revoke node => revokeTx s node
  | .settle node nonce => Onlyne.Trust.settle s node nonce
  | .park node nonce now => Onlyne.Trust.park s now node nonce
  | .compare expected next => (compareObligation s expected next).2
  | .closeWindow => Onlyne.Trust.closeWindow s
  | .abandonRotation => Onlyne.Trust.abandonRotation s
  | .rotate previous fingerprint peers now =>
    match rotateTx s now previous fingerprint peers with
    | .error _ => s
    | .ok s' => s'

theorem Transaction.run_eq_or_commits (crypto : Crypto) (s : TrustStore) (tx : Transaction) :
    tx.run crypto s = s ∨ tx.Commits crypto s (tx.run crypto s) := by
  cases tx
  case request | receive | authenticate | rotate =>
    simp only [run, Commits]
    split
    · exact .inl rfl
    · first | exact .inr ⟨_, ‹_›⟩ | exact .inr ‹_›
  all_goals exact .inr rfl

variable {tx : Transaction} {cfg : Config} {n n' : Node} {a : Act} {input : Input} {task : Task}

theorem Transaction.Commits.run_eq {crypto : Crypto} {s s' : TrustStore} (h : tx.Commits crypto s s') :
    tx.run crypto s = s' := by
  cases tx
  case request => obtain ⟨commit, hc⟩ := h; simp only [run, hc]
  case receive => obtain ⟨entry, hc⟩ := h; simp only [run, hc]
  case authenticate => simp only [run, show authenticateTx s _ _ _ _ = .ok s' from h]
  case rotate => simp only [run, show rotateTx s _ _ _ _ = .ok s' from h]
  all_goals exact h.symm

def Task.transaction (cfg : Config) (now : Int) : Task → Input → Option Transaction
  | .request peer own, .id id => some (.request peer own id now)
  | .receiveReply value seeded _, .go => some (.receive value seeded now)
  | .receive value seeded, .go => some (.receive value seeded now)
  | .settle node nonce, .go => some (.settle node nonce)
  | .park node nonce, .go => some (.park node nonce now)
  | .authenticate actor nonce timestamp, .go => some (.authenticate actor nonce timestamp now)
  | .redriveDelete _ owed, .go => some (.compare owed none)
  | .redriveClose, .go => some .closeWindow
  | .redriveAbandon, .go => some .abandonRotation
  | .redriveUnblock owed _, .go => some (.compare owed (some { owed with blocked := none }))
  | .redriveRewrite owed _ _, .id id =>
    some (.compare owed (some { owed with nonce := id, lastAt := now }))
  | .rotateCommit previous next peers, .ids ids =>
    some (.rotate previous (cfg.crypto.fingerprint (cfg.crypto.publicKey next)) (peers.zip ids) now)
  | _, _ => none

def Act.transaction (cfg : Config) (now : Int) : Act → Option Transaction
  | .revoke node => some (.revoke node)
  | .advance task input => task.transaction cfg now input
  | _ => none

def afterTransaction (crypto : Crypto) (s : TrustStore) : Option Transaction → TrustStore
  | none => s
  | some tx => tx.run crypto s

theorem resume_store {packets : List Packet} (h : resume cfg n task input = some (n', packets)) :
    n'.store = afterTransaction cfg.crypto n.store (task.transaction cfg n.now input) := by
  unfold resume at h
  split at h
  -- Below the choice of task and input, only the outcome of its transaction is left to split.
  all_goals (try dsimp only at h)
  all_goals (repeat' split at h)
  all_goals cases h
  all_goals first
    | rfl
    | simp only [Task.transaction, afterTransaction, Transaction.run, *, Node.spawn]

/-- An act runs its transaction and does nothing else to the rows. -/
theorem step_store (h : step cfg n a = some n') :
    n'.store = afterTransaction cfg.crypto n.store (a.transaction cfg n.now) := by
  obtain ⟨⟨m, packets⟩, hact, rfl⟩ := Option.map_eq_some_iff.mp h
  unfold act at hact
  split at hact
  case h_10 task input =>
    split at hact
    · exact resume_store (n := { n with tasks := n.tasks.erase task }) hact
    · cases hact
  all_goals (repeat' split at hact)
  all_goals cases hact
  all_goals rfl

/-- An act leaves the rows alone or commits its transaction. -/
theorem step_transaction (h : step cfg n a = some n') : n'.store = n.store ∨
      ∃ tx, a.transaction cfg n.now = some tx ∧ tx.Commits cfg.crypto n.store n'.store := by
  rw [step_store h]
  cases a.transaction cfg n.now with
  | none => exact .inl rfl
  | some tx =>
    rcases tx.run_eq_or_commits cfg.crypto n.store with hsame | hcom
    · exact .inl hsame
    · exact .inr ⟨tx, rfl, hcom⟩

/-! ## The acts that run a transaction -/

/-- The act that runs a transaction at the clock `now`. -/
def Transaction.RunBy (cfg : Config) (now : Int) (a : Act) : Transaction → Prop
  | .request peer own id clock => clock = now ∧ a = .advance (.request peer own) (.id id)
  | .receive value seeded clock => clock = now ∧
      (a = .advance (.receive value seeded) .go ∨
        ∃ nonce, a = .advance (.receiveReply value seeded nonce) .go)
  | .authenticate actor nonce timestamp clock => clock = now ∧
      a = .advance (.authenticate actor nonce timestamp) .go
  | .revoke node => a = .revoke node
  | .settle node nonce => a = .advance (.settle node nonce) .go
  | .park node nonce clock => clock = now ∧ a = .advance (.park node nonce) .go
  | .compare owed none => ∃ reason, a = .advance (.redriveDelete reason owed) .go
  | .compare owed (some next) =>
      (next = { owed with blocked := none } ∧ ∃ entry, a = .advance (.redriveUnblock owed entry) .go) ∨
      ∃ entry live id, next = { owed with nonce := id, lastAt := now } ∧
        a = .advance (.redriveRewrite owed entry live) (.id id)
  | .closeWindow => a = .advance .redriveClose .go
  | .abandonRotation => a = .advance .redriveAbandon .go
  | .rotate previous fingerprint peers clock => clock = now ∧
      ∃ next listed ids, fingerprint = cfg.crypto.fingerprint (cfg.crypto.publicKey next) ∧
        peers = listed.zip ids ∧ a = .advance (.rotateCommit previous next listed) (.ids ids)

theorem Act.transaction_runBy {now : Int} (htx : a.transaction cfg now = some tx) : tx.RunBy cfg now a := by
  cases a with
  | revoke =>
    cases htx
    rfl
  | advance =>
    simp only [Act.transaction] at htx
    unfold Task.transaction at htx
    split at htx
    all_goals cases htx
    all_goals first
      | exact rfl
      | exact ⟨rfl, rfl⟩
      | exact ⟨rfl, .inl rfl⟩
      | exact ⟨rfl, .inr ⟨_, rfl⟩⟩
      | exact ⟨_, rfl⟩
      | exact .inl ⟨rfl, _, rfl⟩
      | exact .inr ⟨_, _, _, rfl, rfl⟩
      | exact ⟨rfl, _, _, _, rfl, rfl, rfl⟩
  | _ => cases htx

theorem mem_tasks_of_advance (h : step cfg n (.advance task input) = some n') : task ∈ n.tasks := by
  obtain ⟨r, hact, -⟩ := Option.map_eq_some_iff.mp h
  simp only [act] at hact
  split_ifs at hact with hwait
  exact hwait

/-! ## What an act can do to a trust row -/

/-- `RowChange crypto s s' tx node`: between `s` and `s'`, the transaction `tx` leaves the trust row of
`node` alone, or writes it through a local approval, a received statement or a revocation. -/
inductive RowChange (crypto : Crypto) (s s' : TrustStore) (tx : Option Transaction) : NodeId → Prop where
  | same {node} (row : s'.trust.get node = s.trust.get node) : RowChange crypto s s' tx node
  | request {peer : KeyIdentity} {own id now commit} (run : tx = some (.request peer own id now))
      (committed : requestTx s now peer own id = .ok (commit, s'))
      (row : s'.trust.get peer.nodeId = some (requestEntry (s.trust.get peer.nodeId) peer now)) :
      RowChange crypto s s' tx peer.nodeId
  | receive {value : TrustStatement} {seeded now entry} (run : tx = some (.receive value seeded now))
      (committed : receiveTx crypto s now value seeded = .ok (entry, s'))
      (row : s'.trust.get value.nodeId = some (receiveEntry (s.trust.get value.nodeId) value
        (crypto.fingerprint value.publicKey) seeded now)) : RowChange crypto s s' tx value.nodeId
  | revoke {node before} (run : tx = some (.revoke node)) (stored : s.trust.get node = some before)
      (row : s'.trust.get node = some (revokedEntry before)) : RowChange crypto s s' tx node

theorem RowChange.put {crypto : Crypto} {s s' : TrustStore} {tx : Option Transaction} {key : NodeId}
    {row : TrustEntry} (hput : s'.trust = s.trust.put key row)
    (hrow : s'.trust.get key = some row → RowChange crypto s s' tx key) (node : NodeId) :
    RowChange crypto s s' tx node := by
  by_cases hnode : node = key
  · subst hnode
    exact hrow (by rw [hput, Table.get_put_self])
  · exact .same (by rw [hput, Table.get_put_ne _ _ hnode])

theorem Transaction.Commits.rowChange {crypto : Crypto} {s s' : TrustStore}
    (h : tx.Commits crypto s s') (node : NodeId) : RowChange crypto s s' (some tx) node := by
  cases tx with
  | request =>
    obtain ⟨commit, hc⟩ := h
    obtain ⟨-, -, -, htr, -⟩ := requestTx_ok hc
    exact .put htr (.request rfl hc) node
  | receive value =>
    obtain ⟨entry, hc⟩ := h
    obtain ⟨-, -, -, rfl, m, -, hs⟩ := receiveTx_ok hc
    have htr := (congrArg TrustStore.trust hs).trans (unblock_trust ..)
    exact .put htr (.receive rfl hc) node
  | authenticate =>
    have hc := (consumeNonce_ok (authenticateTx_ok h).2).2
    exact .same (by rw [hc])
  | revoke peer =>
    have hs : s'.trust = (markRevoked s peer).trust := by rw [h, revokeTx_trust]
    unfold markRevoked at hs
    split at hs
    · exact .same (by rw [hs])
    · next before hbef => exact .put hs (.revoke rfl hbef) node
  | settle => exact .same (by rw [h, settle_trust])
  | park => exact .same (by rw [h, park_trust])
  | compare => exact .same (by rw [h, compareObligation_trust])
  | closeWindow => exact .same (by rw [h, closeWindow_trust])
  | abandonRotation => exact .same (by rw [h, abandonRotation_trust])
  | rotate =>
    obtain ⟨-, ⟨-, hs⟩ | ⟨-, hs⟩⟩ := rotateTx_ok h
    · exact .same (by rw [hs])
    · exact .same (by rw [hs])

theorem step_row (h : step cfg n a = some n') (node : NodeId) :
    RowChange cfg.crypto n.store n'.store (a.transaction cfg n.now) node := by
  rcases step_transaction h with hsame | ⟨tx, htx, hcom⟩
  · exact .same (by rw [hsame])
  · exact htx ▸ hcom.rowChange node

end Onlyne.Trust
