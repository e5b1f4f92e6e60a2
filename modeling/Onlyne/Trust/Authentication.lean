import Onlyne.Trust.KeyPinning
import Onlyne.Trust.Nonces

/-!
# Trust: the key a request is accepted under

`authenticate` reads the caller's row, checks the signature under the key it finds there and then opens the
transaction that consumes the nonce.  That transaction looks at the state of the row again and not at its key.  A
`Door` is a node with the requests that stand between the check and the transaction, each with the key it was
checked under; it does what the node does (`door_projects`, `door_covers`).

`accepted_under_stored_key` proves that a request is accepted under the key that is stored at its transaction, in
every run in which no approval and no statement enters another key for a caller while one of its requests waits.
`accepted_under_replaced_key` shows both ways in which a request is accepted that the stored key did not sign.
-/

namespace Onlyne.Trust

open Foundation List Option

/-! ## Requests between the check and the transaction -/

/-- A request whose signature was checked under `key`. -/
structure Waiting where
  request : SignedRequest
  key : PublicKey
  deriving DecidableEq, Repr

def Waiting.task (waiting : Waiting) : Task :=
  .authenticate waiting.request.actor waiting.request.nonce waiting.request.timestamp

/-- A node with the requests that it has checked and not yet let in. -/
structure Door where
  node : Node
  waiting : List Waiting := []

inductive DoorAct where
  -- Anything but the end of an `authenticate` call.
  | other (act : Act)
  -- The call of this request goes on, or is lost.
  | conclude (waiting : Waiting) (input : Input)
  deriving DecidableEq, Repr

def DoorAct.act : DoorAct → Act
  | .other act => act
  | .conclude waiting input => .advance waiting.task input

section

variable (cfg : Config) (t : Transition Door DoorAct) (s : TrustStore) (d : Door)

def doorStep : DoorAct → Option Door
  | .other (.authenticate request) =>
    match d.node.store.trust.get request.actor with
    | none => none
    | some entry =>
      (step cfg d.node (.authenticate request)).map fun node => ⟨node, ⟨request, entry.publicKey⟩ :: d.waiting⟩
  | .other .crash => (step cfg d.node .crash).map fun node => ⟨node, []⟩
  | .other (.advance (.authenticate _ _ _) _) => none
  | .other act => (step cfg d.node act).map fun node => ⟨node, d.waiting⟩
  | .conclude waiting input =>
    if waiting ∈ d.waiting then
      (step cfg d.node (.advance waiting.task input)).map fun node => ⟨node, d.waiting.erase waiting⟩
    else none

def acceptedRequest : Option Waiting :=
  match t.act with
  | .conclude waiting .go =>
    let request := waiting.request
    if (authenticateTx t.before.node.store t.before.node.now request.actor request.nonce request.timestamp).isOk then
      some waiting
    else none
  | _ => none

def trustedKey (node : NodeId) : Option PublicKey :=
  match s.trust.get node with
  | none => none
  | some row => if row.state = .trusted then some row.publicKey else none

def verifies (request : SignedRequest) : Bool :=
  (trustedKey s request.actor).any fun key => cfg.crypto.valid key request.signature (.request request.payload)

/-- The key a transaction enters for a peer: the owner approves it and no other one is pinned, or the peer states it
and is not revoked and proves the change. -/
def Transaction.enters (crypto : Crypto) (s : TrustStore) : Transaction → Option (NodeId × PublicKey)
  | .request peer _ _ _ =>
    if pinnedElsewhere (s.trust.get peer.nodeId) peer then none else some (peer.nodeId, peer.publicKey)
  | .receive value _ _ =>
    if revokedRow (s.trust.get value.nodeId) || unprovenChange crypto (s.trust.get value.nodeId) value then none
    else some (value.nodeId, value.publicKey)
  | _ => none

def keepsKeys : Bool :=
  ((t.act.act.transaction cfg t.before.node.now).bind (Transaction.enters cfg.crypto t.before.node.store)).all
    fun entered => t.before.waiting.all fun waiting =>
      waiting.request.actor ≠ entered.1 || waiting.key = entered.2

/-! ## The invariant -/

def Checked : Prop :=
  ∀ waiting ∈ d.waiting,
    cfg.crypto.valid waiting.key waiting.request.signature (.request waiting.request.payload) = true ∧
      ∀ key, trustedKey d.node.store waiting.request.actor = some key → key = waiting.key

end

section Step

variable {cfg : Config} {d d' : Door} {act : DoorAct} {waiting : Waiting} {key : PublicKey} {node : NodeId}

theorem doorStep_cases (h : doorStep cfg d act = some d') : step cfg d.node act.act = some d'.node ∧
      ∀ waiting ∈ d'.waiting, waiting ∈ d.waiting ∨ ∃ entry, act = .other (.authenticate waiting.request) ∧
          d.node.store.trust.get waiting.request.actor = some entry ∧ waiting.key = entry.publicKey := by
  unfold doorStep at h
  split at h
  · next request =>
    split at h
    · cases h
    · next entry hent =>
      obtain ⟨node, hnode, rfl⟩ := map_eq_some_iff.mp h
      refine ⟨hnode, fun waiting hwait => ?_⟩
      rcases mem_cons.mp hwait with rfl | hold
      · exact .inr ⟨entry, rfl, hent, rfl⟩
      · exact .inl hold
  · obtain ⟨node, hnode, rfl⟩ := map_eq_some_iff.mp h
    exact ⟨hnode, fun waiting hwait => absurd hwait not_mem_nil⟩
  · cases h
  · obtain ⟨node, hnode, rfl⟩ := map_eq_some_iff.mp h
    exact ⟨hnode, fun waiting hwait => .inl hwait⟩
  · split_ifs at h
    obtain ⟨node, hnode, rfl⟩ := map_eq_some_iff.mp h
    exact ⟨hnode, fun waiting hwait => .inl (mem_of_mem_erase hwait)⟩

variable {request : SignedRequest}

theorem step_authenticate_known {n n' : Node} (h : step cfg n (.authenticate request) = some n') :
    ∃ entry, n.store.trust.get request.actor = some entry := by
  obtain ⟨⟨m, packets⟩, hact, rfl⟩ := map_eq_some_iff.mp h
  simp only [Trust.act] at hact
  split_ifs at hact with hchk
  unfold authenticateChecks at hchk
  split at hchk
  · cases (Bool.and_eq_true_iff.mp hchk).2
  · next entry hent => exact ⟨entry, hent⟩

/-- A request that is let through the first checks was signed by the key in the caller's row. -/
theorem step_authenticate_valid {n n' : Node} (h : step cfg n (.authenticate request) = some n')
    {entry : TrustEntry} (hent : n.store.trust.get request.actor = some entry) :
    cfg.crypto.valid entry.publicKey request.signature (.request request.payload) = true ∧ n'.store = n.store := by
  obtain ⟨⟨m, packets⟩, hact, rfl⟩ := map_eq_some_iff.mp h
  simp only [Trust.act] at hact
  split_ifs at hact with hchk
  cases hact
  refine ⟨?_, rfl⟩
  unfold authenticateChecks at hchk
  rw [hent] at hchk
  simp only [Bool.and_eq_true] at hchk
  exact hchk.2.2

theorem trustedKey_eq_some_iff {s : TrustStore} :
    trustedKey s node = some key ↔ ∃ row, s.trust.get node = some row ∧ row.state = .trusted ∧ row.publicKey = key := by
  unfold trustedKey
  cases s.trust.get node with
  | none => simp
  | some => simp

theorem trustedKey_of_step {n n' : Node} {a : Act} (h : step cfg n a = some n')
    (hkey : trustedKey n'.store node = some key) : trustedKey n.store node = some key ∨
      (a.transaction cfg n.now).bind (Transaction.enters cfg.crypto n.store) = some (node, key) := by
  obtain ⟨row, hrow, htr, rfl⟩ := trustedKey_eq_some_iff.mp hkey
  cases step_row h node with
  | same kept => exact .inl (trustedKey_eq_some_iff.mpr ⟨row, kept ▸ hrow, htr, rfl⟩)
  | request run committed written =>
    cases written.symm.trans hrow
    have hpinned := (requestTx_ok committed).1
    right
    simp [run, Transaction.enters, hpinned, requestEntry]
  | receive run committed written =>
    cases written.symm.trans hrow
    obtain ⟨hrev, -, hchg, -⟩ := receiveTx_ok committed
    right
    simp [run, Transaction.enters, hrev, hchg, receiveEntry]
  | revoke _ _ written =>
    cases written.symm.trans hrow
    cases htr

theorem checked_step (h : Checked cfg d) (hstep : doorStep cfg d act = some d')
    (hkp : keepsKeys cfg ⟨d, act, d'⟩ = true) : Checked cfg d' := by
  obtain ⟨hnode, hwait⟩ := doorStep_cases hstep
  intro waiting hmem
  rcases hwait waiting hmem with hold | ⟨entry, rfl, hent, hkey⟩
  · obtain ⟨hvalid, hkeys⟩ := h waiting hold
    refine ⟨hvalid, fun key hkey => ?_⟩
    rcases trustedKey_of_step hnode hkey with hkept | henters
    · exact hkeys key hkept
    · unfold keepsKeys at hkp
      rw [henters, all_some, List.all_eq_true] at hkp
      have hentered : waiting.key = key := by simpa using hkp waiting hold
      exact hentered.symm
  · obtain ⟨hvalid, hst⟩ := step_authenticate_valid hnode hent
    rw [hkey]
    refine ⟨hvalid, fun key htr => ?_⟩
    rw [hst] at htr
    obtain ⟨row, hrow, -, rfl⟩ := trustedKey_eq_some_iff.mp htr
    rw [hent] at hrow
    cases hrow
    rfl

/-- The transaction lets a waiting request in only while a key is trusted for its caller. -/
theorem acceptedRequest_cases (hstep : doorStep cfg d act = some d')
    (hacc : acceptedRequest ⟨d, act, d'⟩ = some waiting) :
    waiting ∈ d.waiting ∧ ∃ key, trustedKey d.node.store waiting.request.actor = some key := by
  unfold acceptedRequest at hacc
  split at hacc
  · next accepted hact =>
    dsimp only at hact hacc
    subst hact
    split_ifs at hacc with hok
    cases hacc
    simp only [doorStep] at hstep
    split_ifs at hstep with hmem
    refine ⟨hmem, ?_⟩
    unfold authenticateTx at hok
    split_ifs at hok with htr
    · obtain ⟨row, hrow, hst⟩ := trustedRow_iff.mp htr
      exact ⟨row.publicKey, trustedKey_eq_some_iff.mpr ⟨row, hrow, hst, rfl⟩⟩
    · cases hok
  · cases hacc

theorem Checked.accepts (h : Checked cfg d) (hstep : doorStep cfg d act = some d')
    (hacc : acceptedRequest ⟨d, act, d'⟩ = some waiting) : verifies cfg d.node.store waiting.request = true ∧
      trustedKey d.node.store waiting.request.actor = some waiting.key := by
  obtain ⟨hmem, key, hkey⟩ := acceptedRequest_cases hstep hacc
  obtain ⟨hvalid, hkeys⟩ := h waiting hmem
  obtain rfl := hkeys key hkey
  refine ⟨?_, hkey⟩
  unfold verifies
  rw [hkey, any_some]
  exact hvalid

end Step

/-! ## The door and the node -/

/-- What an `authenticate` call in flight still holds. -/
def Task.authenticates : Task → Option (NodeId × String × Int)
  | .authenticate actor nonce timestamp => some (actor, nonce, timestamp)
  | _ => none

def Waiting.slot (waiting : Waiting) : NodeId × String × Int :=
  (waiting.request.actor, waiting.request.nonce, waiting.request.timestamp)

variable {task : Task} {cfg : Config} {n n' : Node} {owed : TrustOutbound} {entry : TrustEntry} {now : Int}

theorem Task.eq_of_authenticates {waiting : Waiting} (h : task.authenticates = some waiting.slot) :
    task = waiting.task := by
  cases task <;> cases h
  rfl

/-- The `authenticate` calls among the calls in flight. -/
def Node.authentications (n : Node) : List (NodeId × String × Int) := n.tasks.filterMap Task.authenticates

theorem authentications_spawn (n : Node) (tasks : List Task) :
    (n.spawn tasks).authentications = n.authentications ++ tasks.filterMap Task.authenticates :=
  filterMap_append

theorem authentications_spawn_of_none {tasks : List Task} (h : ∀ task ∈ tasks, task.authenticates = none) :
    (n.spawn tasks).authentications = n.authentications := by
  rw [authentications_spawn, filterMap_eq_nil_iff.mpr h, append_nil]

theorem afterRefusal_authenticates {code : ErrorCode} {node : NodeId} {nonce : String} :
    ∀ task ∈ afterRefusal code node nonce, task.authenticates = none := by
  unfold afterRefusal
  split_ifs <;> simp [Task.authenticates]

theorem afterOwn_authenticates (owed : TrustOutbound) (entry : TrustEntry) (own : Fingerprint) :
    (afterOwn owed entry own).authenticates = none := by
  unfold afterOwn
  split
  · rfl
  · split_ifs <;> rfl

theorem afterWindow_authenticates {window : Option RotationWindow} {rotating : Bool} {own : Fingerprint} :
    ∀ task ∈ afterWindow window rotating owed entry own, task.authenticates = none := by
  unfold afterWindow
  split
  · simp [Task.authenticates]
  · split_ifs <;> simp [Task.authenticates]

theorem afterDue_authenticates : ∀ task ∈ afterDue now owed entry, task.authenticates = none := by
  unfold afterDue
  split
  · simp [Task.authenticates]
  · split_ifs <;> simp [Task.authenticates]

/-- No call that goes on starts an `authenticate` call. -/
theorem resume_authentications {m : Node} {input : Input} {packets : List Packet}
    (h : resume cfg n task input = some (m, packets)) : m.authentications = n.authentications := by
  unfold resume at h
  split at h
  all_goals (try dsimp only at h)
  all_goals (repeat' split at h)
  all_goals cases h
  all_goals first
    | rfl
    | exact authentications_spawn_of_none afterRefusal_authenticates
    | exact authentications_spawn_of_none afterWindow_authenticates
    | exact authentications_spawn_of_none afterDue_authenticates
    | exact authentications_spawn_of_none (forall_mem_singleton.mpr rfl)
    | exact authentications_spawn_of_none (forall_mem_singleton.mpr (afterOwn_authenticates ..))
    | exact authentications_spawn_of_none (forall_mem_nil _)
    | exact authentications_spawn_of_none (List.forall_mem_map.mpr fun _ _ => rfl)

/-- The `authenticate` calls that stay in flight through an act, and the one it starts. -/
def Act.authentications (n : Node) : Act → List (NodeId × String × Int)
  | .crash => []
  | .authenticate signed => n.authentications ++ [(signed.actor, signed.nonce, signed.timestamp)]
  | .advance task _ => (n.tasks.erase task).filterMap Task.authenticates
  | _ => n.authentications

theorem step_authentications {a : Act} (h : step cfg n a = some n') : n'.authentications = a.authentications n := by
  obtain ⟨⟨m, packets⟩, hact, rfl⟩ := map_eq_some_iff.mp h
  unfold Trust.act at hact
  split at hact
  case h_10 task input =>
    split at hact
    · exact resume_authentications (n := { n with tasks := n.tasks.erase task }) hact
    · cases hact
  all_goals (repeat' split at hact)
  all_goals cases hact
  all_goals first
    | rfl
    | exact authentications_spawn ..
    | exact authentications_spawn_of_none (forall_mem_singleton.mpr rfl)
    | exact authentications_spawn_of_none (List.forall_mem_map.mpr fun _ _ => rfl)

/-! ## One check for each acceptance -/

/-- A request of this caller, nonce and time passes the signature check under the key that is stored then. -/
def checksSlot (cfg : Config) (slot : NodeId × String × Int) (t : Transition Node Act) : Bool :=
  match t.act with
  | .authenticate request => (request.actor, request.nonce, request.timestamp) = slot &&
      (t.before.store.trust.get request.actor).any fun entry =>
        cfg.crypto.valid entry.publicKey request.signature (.request request.payload)
  | _ => false

def acceptsSlot (slot : NodeId × String × Int) (t : Transition Node Act) : Bool :=
  match t.act with
  | .advance task .go => task.authenticates = some slot &&
      (authenticateTx t.before.store t.before.now slot.1 slot.2.1 slot.2.2).isOk
  | _ => false

theorem step_slots {a : Act} (h : step cfg n a = some n') (slot : NodeId × String × Int) :
    [⟨n, a, n'⟩].countP (acceptsSlot slot) + n'.authentications.count slot ≤
      n.authentications.count slot + [⟨n, a, n'⟩].countP (checksSlot cfg slot) := by
  rw [step_authentications h, countP_singleton, countP_singleton]
  cases a with
  | authenticate request =>
    obtain ⟨entry, hent⟩ := step_authenticate_known h
    have hvalid := (step_authenticate_valid h hent).1
    simp only [acceptsSlot, checksSlot, Act.authentications, hent, any_some, hvalid, count_append, count_singleton]
    by_cases hslot : (request.actor, request.nonce, request.timestamp) = slot <;> simp [hslot]
  | crash => simp [acceptsSlot, Act.authentications]
  | advance task input =>
    -- A call that goes on is in flight no more.
    have hcount := ((perm_cons_erase (mem_tasks_of_advance h)).filterMap Task.authenticates).count_eq slot
    have hacc : (if acceptsSlot slot ⟨n, .advance task input, n'⟩ then 1 else 0) ≤
        ([task].filterMap Task.authenticates).count slot := by
      unfold acceptsSlot
      split
      · next heq =>
        cases heq
        by_cases hslot : task.authenticates = some slot
        · simp only [hslot, decide_true, Bool.true_and, filterMap_cons_some hslot, count_cons_self]
          split_ifs <;> omega
        · simp [hslot]
      · simp
    rw [← singleton_append, filterMap_append, count_append] at hcount
    simp only [Act.authentications, Node.authentications]
    omega
  | _ => simp [acceptsSlot, Act.authentications]

/-- The waiting requests are those of the `authenticate` calls in flight. -/
def Door.Faithful (d : Door) : Prop := d.node.authentications.Perm (d.waiting.map Waiting.slot)

theorem doorStep_advance {d : Door} (h : task.authenticates = none) (input : Input) :
    doorStep cfg d (.other (.advance task input)) =
      (step cfg d.node (.advance task input)).map fun node => ⟨node, d.waiting⟩ := by
  cases task <;> first | rfl | cases h

theorem Door.Faithful.covers {d : Door} {a : Act} (h : d.Faithful) (hstep : step cfg d.node a = some n') :
    ∃ act d', doorStep cfg d act = some d' ∧ act.act = a ∧ d'.node = n' ∧ d'.Faithful := by
  have hcalls := step_authentications hstep
  -- An act that no waiting request is about.
  have hoth (hkeep : a.authentications d.node = d.node.authentications)
      (hdoor : doorStep cfg d (.other a) = (step cfg d.node a).map fun node => ⟨node, d.waiting⟩) :
      ∃ act d', doorStep cfg d act = some d' ∧ act.act = a ∧ d'.node = n' ∧ d'.Faithful := by
    refine ⟨.other a, ⟨n', d.waiting⟩, by rw [hdoor, hstep]; rfl, rfl, rfl, ?_⟩
    unfold Door.Faithful
    rw [hcalls, hkeep]
    exact h
  cases a with
  | authenticate request =>
    obtain ⟨entry, hent⟩ := step_authenticate_known hstep
    refine ⟨.other (.authenticate request), ⟨n', ⟨request, entry.publicKey⟩ :: d.waiting⟩, ?_, rfl, rfl, ?_⟩
    · simp only [doorStep, hent, hstep, map_some]
    · unfold Door.Faithful
      rw [hcalls]
      exact (perm_append_singleton _ _).trans (h.cons _)
  | crash =>
    refine ⟨.other .crash, ⟨n', []⟩, by simp only [doorStep, hstep, map_some], rfl, rfl, ?_⟩
    unfold Door.Faithful
    rw [hcalls]
    exact .refl []
  | advance task input =>
    have hmem := mem_tasks_of_advance hstep
    have hperm := (perm_cons_erase hmem).filterMap Task.authenticates
    cases hslot : task.authenticates with
    | none =>
      rw [filterMap_cons_none hslot] at hperm
      refine ⟨.other (.advance task input), ⟨n', d.waiting⟩, ?_, rfl, rfl, ?_⟩
      · rw [doorStep_advance hslot, hstep]
        rfl
      · unfold Door.Faithful
        rw [hcalls]
        exact hperm.symm.trans h
    | some slot =>
      rw [filterMap_cons_some hslot] at hperm
      -- The call in flight is that of a waiting request.
      have hwaits : slot ∈ d.waiting.map Waiting.slot := (hperm.symm.trans h).mem_iff.mp mem_cons_self
      obtain ⟨waiting, hwait, rfl⟩ := List.mem_map.mp hwaits
      obtain rfl := Task.eq_of_authenticates hslot
      refine ⟨.conclude waiting input, ⟨n', d.waiting.erase waiting⟩, ?_, rfl, rfl, ?_⟩
      · simp only [doorStep, if_pos hwait, hstep, map_some]
      · unfold Door.Faithful
        rw [hcalls]
        have herase := (perm_cons_erase hwait).map Waiting.slot
        exact (hperm.symm.trans (h.trans herase)).cons_inv
  | _ => exact hoth rfl rfl

theorem door_projects {d d' : Door} {h : List (Transition Door DoorAct)} (hrun : Run (doorStep cfg) d h d') :
    Run (step cfg) d.node (h.map fun t => ⟨t.before.node, t.act.act, t.after.node⟩) d'.node := by
  induction hrun with
  | nil => exact .nil
  | snoc _ hstep ih =>
    rw [map_append]
    exact ih.snoc (doorStep_cases hstep).1

theorem door_covers {own : PrivateKey} {seeds : List TrustSeed}
    {h : List (Transition Node Act)} (hrun : Run (step cfg) (Node.init own seeds now) h n) :
    ∃ h' d, Run (doorStep cfg) { node := Node.init own seeds now } h' d ∧ d.node = n ∧
      h'.map (fun t => ⟨t.before.node, t.act.act, t.after.node⟩) = h := by
  suffices hfaith : ∃ h' d, Run (doorStep cfg) { node := Node.init own seeds now } h' d ∧ d.node = n ∧
      h'.map (fun t => ⟨t.before.node, t.act.act, t.after.node⟩) = h ∧ d.Faithful by
    obtain ⟨h', d, hdoor, hnode, hmap, -⟩ := hfaith
    exact ⟨h', d, hdoor, hnode, hmap⟩
  induction hrun with
  | nil => exact ⟨[], _, .nil, rfl, rfl, .refl []⟩
  | snoc _ hstep ih =>
    obtain ⟨h', d, hdoor, rfl, rfl, hfaith⟩ := ih
    obtain ⟨act, d', hnext, rfl, rfl, hfaith'⟩ := hfaith.covers hstep
    refine ⟨h' ++ [⟨d, act, d'⟩], d', hdoor.snoc hnext, rfl, ?_, hfaith'⟩
    rw [map_append]
    rfl

/-- **Requests are accepted under the stored key.**  In every interleaving of requests with approvals, statements,
revocations and rotations in which no other key is entered for a caller while one of its requests waits, a request
that is accepted verifies under the key that is stored in its caller's trusted row at the transaction that consumes
the nonce; it is the key the request was checked under. -/
theorem accepted_under_stored_key {cfg : Config} {n : Node} {h : List (Transition Door DoorAct)} {d : Door}
    (hrun : Run (doorStep cfg) { node := n } h d) (hkeeps : ∀ t ∈ h, keepsKeys cfg t = true) :
    ∀ t ∈ h, ∀ waiting, acceptedRequest t = some waiting → verifies cfg t.before.node.store waiting.request = true ∧
        trustedKey t.before.node.store waiting.request.actor = some waiting.key := by
  intro t ht waiting hacc
  have hchk : Checked cfg t.before := hrun.before_of hkeeps (fun waiting hwait => absurd hwait not_mem_nil)
      (fun _ _ _ hs hstep hcond => checked_step hs hstep hcond) ht
  exact hchk.accepts (hrun.step_of_mem ht) hacc

namespace Scenario

/-- A request of `b` that was checked under `kb`. -/
def bobWaits : Waiting := { request := bobRequests "r1" 0, key := crypto.publicKey "kb" }

/-- `a` checks a request of `b`, does `between`, and then runs the transaction of the request. -/
def acceptedAfter (between : List Act) : List DoorAct :=
  (acceptedInvitation ++ Act.authenticate (bobRequests "r1" 0) :: between).map .other ++ [.conclude bobWaits .go]

/-- The statement of `b` under `kb2`, without a proof by `kb`. -/
def bobReturns : TrustStatement := stated "b" "kb2" "a" "ka" true "n3" 0 none none

/-- `b` rotates to `kb2`. -/
def rotation : List Act := [.introduce bobRotates, .advance (.receive bobRotates false) .go]

/-- The owner revokes `b` and confirms it under `kb2`. -/
def replacement : List Act :=
  [.revoke "b", .request "b" "fp-kb2" (identity "b" "kb2"),
    .advance (.request (identity "b" "kb2") "fp-ka") (.id "id2"),
    .introduce bobReturns, .advance (.receive bobReturns false) .go]

/-- After `between` the request is accepted, though the key stored then did not sign it. -/
def AcceptedUnsigned (between : List Act) : Prop :=
  ∃ h d, Run (doorStep (config "a")) { node := Node.init "ka" [] 0 } h d ∧
    h.map Transition.act = acceptedAfter between ∧
    ∃ t ∈ h, acceptedRequest t = some bobWaits ∧
      trustedKey t.before.node.store "b" = some (crypto.publicKey "kb2") ∧
      verifies (config "a") t.before.node.store bobWaits.request = false

end Scenario

open Scenario in
/-- A request is accepted with a revocation of another peer in between. -/
theorem accepted_under_stored_key_revoking : ∃ h d, Run (doorStep (config "a")) { node := Node.init "ka" [] 0 } h d ∧
      (∃ t ∈ h, acceptedRequest t = some bobWaits) ∧
      ∀ t ∈ h, ∀ waiting, acceptedRequest t = some waiting →
        verifies (config "a") t.before.node.store waiting.request = true ∧
          trustedKey t.before.node.store waiting.request.actor = some waiting.key := by
  obtain ⟨h, d, hrun, hp⟩ := exists_run (doorStep (config "a")) { node := Node.init "ka" [] 0 }
    (acceptedAfter [.revoke "c"])
    (fun h _ => (∃ t ∈ h, acceptedRequest t = some bobWaits) ∧
      ∀ t ∈ h, keepsKeys (config "a") t = true) (by decide +kernel)
  exact ⟨h, d, hrun, hp.1, accepted_under_stored_key hrun hp.2⟩

open Scenario in
/-- A request is accepted that the stored key did not sign: the caller rotated its key after the signature was
checked, or was revoked and confirmed under another key. -/
theorem accepted_under_replaced_key : AcceptedUnsigned Scenario.rotation ∧ AcceptedUnsigned replacement := by
  have hboth : ∀ between ∈ [Scenario.rotation, replacement], AcceptedUnsigned between := by
    intro between hbtw
    exact exists_run _ _ (acceptedAfter between) _ (by
        revert between
        decide +kernel)
  exact ⟨hboth _ (by simp), hboth _ (by simp)⟩

end Onlyne.Trust
