import Mathlib.Logic.Function.Basic
import Onlyne.Trust.Attempts

/-!
# Trust: agreement of two nodes

Two nodes run the exchange over a network that delays, reorders, drops and repeats packets.  There
is no revocation and no rotation, and only packets a node put on the network are delivered, which
is what unforgeable signatures leave to a network.

`both_trusted` proves that whenever both owners have approved and no obligation is left, both rows
are trusted, in every run in which no refusal is recorded over a recorded approval.  All
statements approve here; a refusal is the reply of a node whose owner had not approved yet.
`overtaken_reply_demotes` shows that such a reply, delivered after a newer statement, undoes the
agreement.
-/

namespace Onlyne.Trust

open Foundation List Option

/-! ## The system -/

inductive Side where
  | left
  | right
  deriving DecidableEq, Repr

def Side.other : Side → Side
  | .left => .right
  | .right => .left

@[simp] theorem Side.other_other (side : Side) : side.other.other = side := by
  cases side <;> rfl

theorem Side.other_ne (side : Side) : side.other ≠ side := by
  cases side <;> decide

structure Setting where
  name : Side → NodeId
  url : Side → String
  own : Side → PrivateKey
  seeds : Side → List TrustSeed
  address : String → Bool
  crypto : Crypto

namespace Setting

def config (S : Setting) (side : Side) : Config :=
  { node := S.name side, baseUrl := S.url side, address := S.address, crypto := S.crypto }

def fingerprint (S : Setting) (side : Side) : Fingerprint :=
  S.crypto.fingerprint (S.crypto.publicKey (S.own side))

def identity (S : Setting) (side : Side) : KeyIdentity :=
  ⟨S.name side, S.crypto.publicKey (S.own side), S.fingerprint side⟩

def seeded (S : Setting) (side : Side) : Bool :=
  (seedFor (S.seeds side) (S.name side.other)).isSome

end Setting

/-- Both nodes and the packets on the network, each with the node it is addressed to. -/
structure Pair where
  node : Side → Node
  net : List (Side × Packet) := []

/-- One node has moved on and put packets on the network for the other. -/
def Pair.update (p : Pair) (side : Side) (n : Node) (packets : List Packet) : Pair where
  node := Function.update p.node side n
  net := p.net ++ packets.map fun packet => (side.other, packet)

inductive PairAct where
  -- A node acts.
  | run (side : Side) (a : Act)
  -- The network loses a packet.
  | drop (side : Side) (packet : Packet)
  deriving DecidableEq

/-- The acts of the exchange.  Statements and replies come from the network, which may deliver them
again later; key lookups answer the other node's key; nobody revokes, rotates or reconfigures. -/
def permitted (S : Setting) (p : Pair) (side : Side) : Act → Bool
  | .clock _ | .crash | .redrive => true
  | .request node _ live => node = S.name side.other && live = S.identity side.other
  | .introduce value => (side, .statement value) ∈ p.net
  | .advance _ (.answer value) => (side, .reply value) ∈ p.net
  | .advance _ (.live live) => live = S.identity side.other
  | .advance _ _ => true
  | .revoke _ | .rotate _ | .loadSeeds _ | .authenticate _ => false

def pairStep (S : Setting) (p : Pair) : PairAct → Option Pair
  | .run side a =>
    if permitted S p side a then
      (act (S.config side) (p.node side) a).map fun r => p.update side r.1 r.2
    else none
  | .drop side packet => some { p with net := p.net.erase (side, packet) }

def Pair.init (S : Setting) (now : Side → Int) : Pair where
  node side := Node.init (S.own side) (S.seeds side) (now side)

@[simp] theorem Pair.update_node_self (p : Pair) (side : Side) (n : Node) (packets : List Packet) :
    (p.update side n packets).node side = n :=
  Function.update_self ..

variable {s s' : TrustStore} {side : Side} {S : Setting} {packet : Packet}

theorem Pair.update_node_ne (p : Pair) {other : Side} (n : Node) (packets : List Packet)
    (h : other ≠ side) : (p.update side n packets).node other = p.node other :=
  Function.update_of_ne h ..

/-- A packet on the network after a step was there before, or the acting node has just sent it. -/
theorem Pair.mem_update_net {p : Pair} {dest : Side} {n : Node} {packets : List Packet}
    : (dest, packet) ∈ (p.update side n packets).net ↔
      (dest, packet) ∈ p.net ∨ dest = side.other ∧ packet ∈ packets := by
  simp only [update, mem_append, List.mem_map, Prod.mk.injEq]
  constructor
  · rintro (hold | ⟨_, hmem, rfl, rfl⟩)
    · exact .inl hold
    · exact .inr ⟨rfl, hmem⟩
  · rintro (hold | ⟨rfl, hmem⟩)
    · exact .inl hold
    · exact .inr ⟨packet, hmem, rfl, rfl⟩

/-! ## The approval bits of a row -/

/-- The row of `peer` carries the local approval. -/
def localApproval (s : TrustStore) (peer : NodeId) : Bool :=
  match s.trust.get peer with
  | none => false
  | some row => row.localApproved

/-- The row of `peer` carries the peer's approval. -/
def remoteApproval (s : TrustStore) (peer : NodeId) : Bool :=
  match s.trust.get peer with
  | none => false
  | some row => row.remoteApproved

theorem localApproval_iff {peer : NodeId} : localApproval s peer = true ↔
      ∃ row, s.trust.get peer = some row ∧ row.localApproved = true := by
  unfold localApproval
  cases s.trust.get peer <;> simp

theorem remoteApproval_iff {peer : NodeId} : remoteApproval s peer = true ↔
      ∃ row, s.trust.get peer = some row ∧ row.remoteApproved = true := by
  unfold remoteApproval
  cases s.trust.get peer <;> simp

def recordsRefusal (s : TrustStore) : Option Transaction → Bool
  | some (.receive value _ _) =>
    !value.approved && remoteApproval s value.nodeId &&
      (s.nonce.get (value.nodeId, exchangeNonce value.nonce)).isNone
  | _ => false

def overtaken (S : Setting) (t : Transition Pair PairAct) : Bool :=
  match t.act with
  | .run side a =>
    recordsRefusal (t.before.node side).store
      (a.transaction (S.config side) (t.before.node side).now)
  | .drop .. => false

section Bits

variable {cfg : Config} {n n' : Node} {a : Act} {peer : NodeId}

section

variable (hstep : step cfg n a = some n') (hrev : ∀ node, a ≠ .revoke node)
include hstep hrev

theorem step_localApproval (hloc : localApproval n.store peer = true) : localApproval n'.store peer = true := by
  unfold localApproval at hloc ⊢
  cases step_row hstep peer with
  | same row => rwa [row]
  | request _ _ row => rw [row]; rfl
  | receive _ _ row =>
    rw [row]
    split at hloc
    · cases hloc
    · next prev => simp [receiveEntry, prev, hloc]
  | revoke run => exact absurd (Act.transaction_runBy run) (hrev peer)

theorem step_remoteApproval (hrfs : recordsRefusal n.store (a.transaction cfg n.now) = false)
    (hrem : remoteApproval n.store peer = true) : remoteApproval n'.store peer = true := by
  cases step_row hstep peer with
  | same row =>
    unfold remoteApproval
    rwa [row]
  | request _ _ row =>
    unfold remoteApproval at hrem ⊢
    rw [row]
    split at hrem
    · cases hrem
    · next prev => simp [requestEntry, prev, hrem]
  | receive run committed row =>
    obtain ⟨-, -, -, -, m, hm, -⟩ := receiveTx_ok committed
    have hfree := (consumeNonce_ok hm).1
    unfold remoteApproval
    rw [row]
    simpa [recordsRefusal, run, hrem, hfree, receiveEntry] using hrfs
  | revoke run => exact absurd (Act.transaction_runBy run) (hrev peer)

end

theorem requestTx_owes {s : TrustStore} {now : Int} {live : KeyIdentity} {own : Fingerprint}
    {id : String} {commit : RequestCommit} (h : requestTx s now live own id = .ok (commit, s')) :
    localApproval s live.nodeId = true ∨ (s'.outbound.get live.nodeId).isSome = true := by
  obtain ⟨-, hfr, hrot, -, hout, -, -⟩ := requestTx_ok h
  cases hrow : s.outbound.get live.nodeId with
  | some =>
    right
    rw [hout]
    split_ifs <;> simp [hrow]
  | none =>
    have hstill : commit.rotating = false := by simp [hrot, rotatingTo, hrow]
    cases hf : commit.fresh with
    | true => exact .inr (by simp [hout, hf, hstill])
    | false =>
      left
      rw [hfr] at hf
      unfold localApproval
      cases hprev : s.trust.get live.nodeId with
      | none => simp [freshApproval, hprev] at hf
      | some =>
        simp only [freshApproval, hprev, Bool.or_eq_false_iff] at hf
        simpa using hf.1.2

/-- Where a local approval comes from: it was there, the owner gave it and owes a statement, or a
seed gave it with the peer's message. -/
theorem step_localApproval_cases (hstep : step cfg n a = some n') (hloc : localApproval n'.store peer = true) :
    localApproval n.store peer = true ∨ (n'.store.outbound.get peer).isSome = true ∨
      ∃ value now, a.transaction cfg n.now = some (.receive value true now) ∧
        value.nodeId = peer ∧ remoteApproval n'.store peer = value.approved := by
  cases step_row hstep peer with
  | same row =>
    unfold localApproval at hloc
    rw [row] at hloc
    exact .inl hloc
  | request _ committed => exact (requestTx_owes committed).imp_right .inl
  | @receive value seeded now _ run _ row =>
    cases seeded with
    | true => exact .inr (.inr ⟨value, now, run, rfl, by simp [remoteApproval, row, receiveEntry]⟩)
    | false =>
      -- Without a seed the approval is the one of the previous row.
      left
      cases hprev : n.store.trust.get value.nodeId with
      | none => simp [localApproval, row, receiveEntry, hprev] at hloc
      | some =>
        simp only [localApproval, row, receiveEntry, hprev, map_some, getD_some, Bool.false_or] at hloc
        simp [localApproval, hprev, hloc]
  | revoke _ _ row => simp [localApproval, row, revokedEntry] at hloc

/-- An obligation is removed by the reply that settles it, by a revocation or by a redrive pass. -/
theorem step_obligation (hstep : step cfg n a = some n') (howed : (n.store.outbound.get peer).isSome = true) :
    (n'.store.outbound.get peer).isSome = true ∨ (∃ nonce, a = .advance (.settle peer nonce) .go) ∨ a = .revoke peer ∨
      (∃ reason owed, a = .advance (.redriveDelete reason owed) .go) ∨ a = .advance .redriveAbandon .go := by
  rcases step_slot hstep peer with hsame | ⟨tx, -, hby, hslot⟩
  · exact .inl (by rwa [hsame])
  · generalize n'.store.outbound.get peer = after at hslot ⊢
    cases hslot with
    | same => exact .inl howed
    | approve | mark | replace | rotate => exact .inl rfl
    | settle => exact .inr (.inl ⟨_, hby⟩)
    | revoke => exact .inr (.inr (.inl hby))
    | discard =>
      obtain ⟨reason, hact⟩ := hby
      exact .inr (.inr (.inr (.inl ⟨reason, _, hact⟩)))
    | abandon => exact .inr (.inr (.inr (.inr hby)))

end Bits

/-! ## One node of the exchange -/

/-- An obligation of the exchange: an approval under the node's key, for a peer it has approved. -/
def OwedOk (S : Setting) (side : Side) (s : TrustStore) (owed : TrustOutbound) : Prop :=
  owed.kind = .approval ∧ owed.fingerprint = S.fingerprint side ∧
    localApproval s owed.nodeId = true

/-- What a call in flight knows in the exchange.  No pass deletes an obligation, and nothing belongs to
a rotation. -/
def TaskOk (S : Setting) (side : Side) (s : TrustStore) : Task → Prop
  | .request _ own => own = S.fingerprint side
  | .send _ approved _ _ => approved = true
  | .receiveReply value seeded _ => value.nodeId = S.name side.other ∧ seeded = S.seeded side
  | .receive value seeded =>
    value.nodeId = S.name side.other ∧ seeded = S.seeded side ∧ value.approved = true
  | .redrive owed => OwedOk S side s owed
  | .redriveOwn owed entry | .redriveDue owed entry | .redriveUnblock owed entry
  | .redriveRetry owed entry | .redriveRewrite owed entry _ =>
    OwedOk S side s owed ∧ entry.localApproved = true
  | .redriveWindow .. | .redriveDelete .. | .redriveClose | .redriveAbandon | .rotateList ..
  | .rotateCommit .. | .rotateStart .. | .rotateReplace .. | .rotateSend .. => False
  | .await .. | .settle .. | .park .. | .introduced .. | .authenticate .. => True

structure Plain (S : Setting) (side : Side) (n : Node) : Prop where
  own : n.own = S.own side
  seeds : n.seeds = S.seeds side
  rows : ∀ node row, n.store.trust.get node = some row → row.state ≠ .revoked ∧
    (row.state = .trusted ↔ row.localApproved = true ∧ row.remoteApproved = true)
  owed : ∀ node owed, n.store.outbound.get node = some owed →
    owed.nodeId = node ∧ OwedOk S side n.store owed
  tasks : ∀ task ∈ n.tasks, TaskOk S side n.store task

theorem OwedOk.mono {owed : TrustOutbound} (hmono : ∀ node, localApproval s node = true → localApproval s' node = true)
    (h : OwedOk S side s owed) : OwedOk S side s' owed :=
  ⟨h.1, h.2.1, hmono _ h.2.2⟩

theorem TaskOk.mono {task : Task} (hmono : ∀ node, localApproval s node = true → localApproval s' node = true)
    (h : TaskOk S side s task) : TaskOk S side s' task := by
  cases task with
  | redrive => exact OwedOk.mono hmono h
  | redriveOwn | redriveDue | redriveUnblock | redriveRetry | redriveRewrite => exact ⟨h.1.mono hmono, h.2⟩
  | _ => exact h

section PlainStep

variable {S : Setting} {side : Side} {p : Pair} {n n' : Node} {a : Act}

theorem permitted_revoke (h : permitted S p side a = true) : ∀ node, a ≠ .revoke node := by
  rintro node rfl
  cases h

section

variable (hpl : Plain S side n) (hperm : permitted S p side a = true)
include hpl hperm

section

variable (hstep : step (S.config side) n a = some n')
include hstep

theorem Plain.step_rows : ∀ node row, n'.store.trust.get node = some row → row.state ≠ .revoked ∧
      (row.state = .trusted ↔ row.localApproved = true ∧ row.remoteApproved = true) := by
  intro node row hrow
  cases step_row hstep node with
  | same kept => exact hpl.rows node row (kept ▸ hrow)
  | @request live _ _ _ _ _ committed written =>
    cases written.symm.trans hrow
    refine ⟨by simp only [requestEntry]; split_ifs <;> simp, ?_⟩
    cases hprev : n.store.trust.get live.nodeId with
    | none => simp [requestEntry, mutualApproval]
    | some before =>
      obtain ⟨hst, htr⟩ := hpl.rows _ before hprev
      have hpin := (requestTx_ok committed).1
      rw [hprev] at hpin
      have hkey : before.publicKey = live.publicKey := by
        by_contra hne
        simp [pinnedElsewhere, hne, hst] at hpin
      cases hs : before.state with
      | trusted =>
        have hrem := (htr.mp hs).2
        simp [requestEntry, mutualApproval, hkey, hs, hrem]
      | pending => simp [requestEntry, mutualApproval, hkey, hs]
      | revoked => exact absurd hs hst
  | receive _ _ written =>
    cases written.symm.trans hrow
    refine ⟨by simp only [receiveEntry]; split_ifs <;> simp, ?_⟩
    simp only [receiveEntry, Bool.and_eq_true]
    split_ifs with hboth
    · exact iff_of_true rfl hboth
    · exact iff_of_false (by simp) hboth
  | revoke run => exact absurd (Act.transaction_runBy run) (permitted_revoke hperm node)

theorem Plain.step_owed : ∀ node owed, n'.store.outbound.get node = some owed →
      owed.nodeId = node ∧ OwedOk S side n'.store owed := by
  intro node owed hrow
  have hmono : ∀ peer, localApproval n.store peer = true → localApproval n'.store peer = true :=
    fun _ => step_localApproval hstep (permitted_revoke hperm)
  have hold : ∀ row, n.store.outbound.get node = some row →
      row.nodeId = node ∧ OwedOk S side n'.store row := fun row hget =>
    ⟨(hpl.owed node row hget).1, (hpl.owed node row hget).2.mono hmono⟩
  rcases step_transaction hstep with hsame | ⟨tx, htx, hcom⟩
  · rw [hsame] at hrow
    exact hold owed hrow
  · have hby := Act.transaction_runBy htx
    have hslot := (Transaction.owed_cases hcom).slot node
    rw [hrow] at hslot
    generalize haft : some owed = after at hslot
    cases hslot with
    | same => exact hold owed haft.symm
    | @approve live own id now still =>
      cases haft
      obtain ⟨-, rfl⟩ := hby
      have hown : own = S.fingerprint side := hpl.tasks _ (mem_tasks_of_advance hstep)
      obtain ⟨commit, hok⟩ := hcom
      obtain ⟨-, -, -, htr, -⟩ := requestTx_ok hok
      refine ⟨rfl, rfl, hown, ?_⟩
      simp [localApproval, htr, approvalObligation, requestEntry]
    | mark _ row =>
      cases haft
      have hmark := hold _ row
      exact hmark
    | @replace expected next still =>
      cases haft
      obtain ⟨hnode, hkind, -, hfp⟩ := replace_fields hby
      have hexp : OwedOk S side n.store expected := by
        rcases hby with ⟨-, entry, rfl⟩ | ⟨entry, live, id, -, rfl⟩
        · exact (hpl.tasks _ (mem_tasks_of_advance hstep)).1
        · exact (hpl.tasks _ (mem_tasks_of_advance hstep)).1
      refine ⟨hnode, hkind.trans hexp.1, hfp.trans hexp.2.1, ?_⟩
      rw [hnode]
      exact hmono _ hexp.2.2
    | rotate =>
      obtain ⟨-, next, listed, ids, -, -, rfl⟩ := hby
      exact (hpl.tasks _ (mem_tasks_of_advance hstep)).elim
    | _ => cases haft

/-- Only a settled obligation goes away: nobody revokes, and no pass deletes. -/
theorem Plain.step_obligation {peer : NodeId} (howed : (n.store.outbound.get peer).isSome = true) :
    (n'.store.outbound.get peer).isSome = true ∨ ∃ node nonce, Task.settle node nonce ∈ n.tasks := by
  rcases Onlyne.Trust.step_obligation hstep howed with
    hkept | ⟨nonce, rfl⟩ | rfl | ⟨reason, owed, rfl⟩ | rfl
  · exact .inl hkept
  · exact .inr ⟨_, nonce, mem_tasks_of_advance hstep⟩
  · exact absurd rfl (permitted_revoke hperm _)
  · exact (hpl.tasks _ (mem_tasks_of_advance hstep)).elim
  · exact (hpl.tasks _ (mem_tasks_of_advance hstep)).elim

end

section

variable
  (hstmts : ∀ value, (side, .statement value) ∈ p.net → value.nodeId = S.name side.other ∧ value.approved = true)
  (hreps : ∀ value, (side, .reply value) ∈ p.net → value.nodeId = S.name side.other)
include hstmts hreps

theorem Plain.starts {task : Task} (hst : Starts (S.config side) n a task) : TaskOk S side n.store task := by
  have hfp : n.fingerprint (S.config side) = S.fingerprint side := by
    simp [Node.fingerprint, Setting.fingerprint, Setting.config, hpl.own]
  have hflag : ∀ value seeded, receiveChecks (S.config side) n value = .ok seeded →
      value.nodeId = S.name side.other → seeded = S.seeded side := by
    intro value seeded hchk hnode
    rw [(receiveChecks_ok hchk).1, hpl.seeds, hnode]
    rfl
  cases hst with
  | request => exact hfp
  | introduce checked =>
    simp only [permitted, decide_eq_true_eq] at hperm
    obtain ⟨hnode, happr⟩ := hstmts _ hperm
    exact ⟨hnode, hflag _ _ checked hnode, happr⟩
  | authenticate => trivial
  | redrive row => exact (hpl.owed _ _ row).2
  | rotate => cases hperm
  | advance waiting resumes =>
    have hok := hpl.tasks _ waiting
    cases resumes with
    | request => rfl
    | answer _ _ _ checked =>
      simp only [permitted, decide_eq_true_eq] at hperm
      have hnode := hreps _ hperm
      exact ⟨hnode, hflag _ _ checked hnode⟩
    | gone absent =>
      obtain ⟨row, hrow, -⟩ := localApproval_iff.mp hok.2.2
      exact absurd (absent row hrow) (hpl.rows _ row hrow).1
    | present row =>
      obtain ⟨row', hrow', hloc⟩ := localApproval_iff.mp hok.2.2
      rw [row] at hrow'
      cases hrow'
      exact ⟨hok, hloc⟩
    | ownRotation kind =>
      rw [hok.1.1] at kind
      cases kind
    | ownStale _ stale => exact absurd (hok.1.2.1.trans hfp.symm) stale
    | rewrite => exact hok.2
    | ownDue => exact hok
    | due => exact hok
    | dueBlocked => exact hok
    | unblocked => exact hok
    | retry => exact hok
    | _ => trivial

theorem Plain.step (hstep : step (S.config side) n a = some n') : Plain S side n' where
  own := by
    rcases (step_now_seeds_own hstep).2.2 with hown | ⟨previous, next, peers, htask⟩
    · rw [hown, hpl.own]
    · exact (hpl.tasks _ htask).elim
  seeds := by
    rcases (step_now_seeds_own hstep).2.1 with hseeds | hload
    · rw [hseeds, hpl.seeds]
    · rw [hload] at hperm
      cases hperm
  rows := hpl.step_rows hperm hstep
  owed := hpl.step_owed hperm hstep
  tasks := by
    intro task htask
    have hmono : ∀ peer, localApproval n.store peer = true → localApproval n'.store peer = true :=
      fun _ => step_localApproval hstep (permitted_revoke hperm)
    rcases step_tasks hstep htask with hold | hnew
    · exact (hpl.tasks task hold).mono hmono
    · exact (hpl.starts hperm hstmts hreps hnew).mono hmono

end

end

end PlainStep

/-! ## What the two nodes know of each other -/

/-- What the messages and rows tell about the node `x`, seen from the other node. -/
structure Cross (S : Setting) (p : Pair) (x : Side) : Prop where
  -- Every statement of `x` approves.
  statements : ∀ value, (x.other, .statement value) ∈ p.net →
    value.nodeId = S.name x ∧ value.approved = true
  -- `x` has recorded the approval it replies to; with a seed it always approves.
  replies : ∀ value, (x.other, .reply value) ∈ p.net → value.nodeId = S.name x ∧
    remoteApproval (p.node x).store (S.name x.other) = true ∧
    (S.seeded x = true → value.approved = true)
  introduced : ∀ entry nonce, Task.introduced entry nonce ∈ (p.node x).tasks →
    remoteApproval (p.node x).store (S.name x.other) = true ∧
    (S.seeded x = true → entry.localApproved = true)
  received : ∀ value seeded nonce,
    Task.receiveReply value seeded nonce ∈ (p.node x.other).tasks →
    remoteApproval (p.node x).store (S.name x.other) = true ∧
    (S.seeded x = true → value.approved = true)
  settles : ∀ node nonce, Task.settle node nonce ∈ (p.node x.other).tasks →
    remoteApproval (p.node x).store (S.name x.other) = true ∧
    (S.seeded x = true → remoteApproval (p.node x.other).store (S.name x) = true)
  -- An approval given by the other owner is owed or recorded.
  owner : S.seeded x.other = false →
    localApproval (p.node x.other).store (S.name x) = true →
    ((p.node x.other).store.outbound.get (S.name x)).isSome = true ∨
      remoteApproval (p.node x).store (S.name x.other) = true
  -- The approval of a seeded `x` comes with the first message of `x`.
  seed : S.seeded x = true → localApproval (p.node x.other).store (S.name x) = true →
    ((p.node x.other).store.outbound.get (S.name x)).isSome = true ∨
      remoteApproval (p.node x.other).store (S.name x) = true

/-- A committed statement is recorded with its approval bit; with a seed the row is approved. -/
theorem step_receive {cfg : Config} {n n' : Node} {a : Act} {value : TrustStatement} {seeded : Bool}
    {entry : TrustEntry} {store : TrustStore} (hstep : step cfg n a = some n')
    (htx : a.transaction cfg n.now = some (.receive value seeded n.now))
    (hok : receiveTx cfg.crypto n.store n.now value seeded = .ok (entry, store)) :
    remoteApproval n'.store value.nodeId = value.approved ∧ (seeded = true → entry.localApproved = true) := by
  have hcom : (Transaction.receive value seeded n.now).Commits cfg.crypto n.store store := ⟨entry, hok⟩
  have hst : n'.store = store := by
    rw [step_store hstep, htx]
    exact hcom.run_eq
  obtain ⟨-, -, -, rfl, m, -, rfl⟩ := receiveTx_ok hok
  refine ⟨?_, ?_⟩
  · simp [hst, remoteApproval, receiveEntry]
  · rintro rfl
    simp [receiveEntry]

section CrossStep

variable {S : Setting} {p : Pair} {x : Side} {n' : Node} {a : Act} {packets : List Packet}

theorem Cross.step_self (hcr : Cross S p x) (hpl : Plain S x (p.node x))
    (hperm : permitted S p x a = true) (hact : act (S.config x) (p.node x) a = some (n', packets))
    (hrfs : recordsRefusal (p.node x).store (a.transaction (S.config x) (p.node x).now) = false) :
    Cross S (p.update x n' packets) x := by
  have hstep : step (S.config x) (p.node x) a = some n' := by simp [step, hact]
  have hmono : remoteApproval (p.node x).store (S.name x.other) = true →
      remoteApproval n'.store (S.name x.other) = true :=
    step_remoteApproval hstep (permitted_revoke hperm) hrfs
  have hoth : (p.update x n' packets).node x.other = p.node x.other := p.update_node_ne n' packets x.other_ne
  constructor
  case statements =>
    intro value hval
    rcases Pair.mem_update_net.mp hval with hold | ⟨-, hnew⟩
    · exact hcr.statements value hold
    · generalize hpkt : Packet.statement value = packet at hnew
      cases act_packets hact hnew with
      | statement waiting =>
        cases hpkt
        exact ⟨rfl, hpl.tasks _ waiting⟩
      | reply => cases hpkt
  case replies =>
    intro value hval
    rw [Pair.update_node_self]
    rcases Pair.mem_update_net.mp hval with hold | ⟨-, hnew⟩
    · obtain ⟨hnode, hrem, hseed⟩ := hcr.replies value hold
      exact ⟨hnode, hmono hrem, hseed⟩
    · generalize hpkt : Packet.reply value = packet at hnew
      cases act_packets hact hnew with
      | statement => cases hpkt
      | reply waiting =>
        cases hpkt
        obtain ⟨hrem, hseed⟩ := hcr.introduced _ _ waiting
        exact ⟨rfl, hmono hrem, hseed⟩
  case introduced =>
    intro entry nonce htask
    rw [Pair.update_node_self] at htask ⊢
    rcases step_tasks hstep htask with hold | hnew
    · obtain ⟨hrem, hseed⟩ := hcr.introduced entry nonce hold
      exact ⟨hmono hrem, hseed⟩
    · cases hnew with
      | advance waiting resumes =>
        cases resumes with
        | @introduced value seeded _ store committed =>
          obtain ⟨hnode, hflag, happr⟩ := hpl.tasks _ waiting
          obtain ⟨hrem, hseed⟩ := step_receive hstep rfl committed
          rw [← hnode, hrem, happr, ← hflag]
          exact ⟨rfl, hseed⟩
  case received =>
    intro value seeded nonce htask
    rw [hoth] at htask
    rw [Pair.update_node_self]
    obtain ⟨hrem, hseed⟩ := hcr.received value seeded nonce htask
    exact ⟨hmono hrem, hseed⟩
  case settles =>
    intro node nonce htask
    rw [hoth] at htask ⊢
    rw [Pair.update_node_self]
    obtain ⟨hrem, hseed⟩ := hcr.settles node nonce htask
    exact ⟨hmono hrem, hseed⟩
  case owner =>
    intro hunseeded hloc
    rw [hoth] at hloc ⊢
    rw [Pair.update_node_self]
    exact (hcr.owner hunseeded hloc).imp_right hmono
  case seed =>
    rw [hoth]
    exact hcr.seed

theorem Cross.step_other (hcr : Cross S p x) (hpl : Plain S x.other (p.node x.other))
    (hperm : permitted S p x.other a = true) (hact : act (S.config x.other) (p.node x.other) a = some (n', packets))
    (hrfs : recordsRefusal (p.node x.other).store (a.transaction (S.config x.other) (p.node x.other).now) = false) :
    Cross S (p.update x.other n' packets) x := by
  have hstep : step (S.config x.other) (p.node x.other) a = some n' := by simp [step, hact]
  have hrev := permitted_revoke hperm
  have hmono : remoteApproval (p.node x.other).store (S.name x) = true →
      remoteApproval n'.store (S.name x) = true := step_remoteApproval hstep hrev hrfs
  have hself : (p.update x.other n' packets).node x = p.node x := p.update_node_ne n' packets x.other_ne.symm
  have hnet : ∀ packet, (x.other, packet) ∈ (p.update x.other n' packets).net → (x.other, packet) ∈ p.net := by
    intro packet hmem
    rcases Pair.mem_update_net.mp hmem with hold | ⟨hdest, -⟩
    · exact hold
    · exact absurd hdest.symm (Side.other_ne _)
  have hset : ((p.node x.other).store.outbound.get (S.name x)).isSome = true →
      (n'.store.outbound.get (S.name x)).isSome = true ∨
        ∃ node nonce, Task.settle node nonce ∈ (p.node x.other).tasks :=
    hpl.step_obligation hperm hstep
  constructor
  case statements => exact fun value hval => hcr.statements value (hnet _ hval)
  case replies =>
    rw [hself]
    exact fun value hval => hcr.replies value (hnet _ hval)
  case introduced =>
    rw [hself]
    exact hcr.introduced
  case received =>
    intro value seeded nonce htask
    rw [Pair.update_node_self] at htask
    rw [hself]
    rcases step_tasks hstep htask with hold | hnew
    · exact hcr.received value seeded nonce hold
    · cases hnew with
      | advance waiting resumes =>
        cases resumes with
        | answer => exact (hcr.replies value (by simpa [permitted] using hperm)).2
  case settles =>
    intro node nonce htask
    rw [Pair.update_node_self] at htask ⊢
    rw [hself]
    rcases step_tasks hstep htask with hold | hnew
    · exact (hcr.settles node nonce hold).imp_right fun h hseed => hmono (h hseed)
    · cases hnew with
      | advance waiting resumes =>
        cases resumes with
        | @reply value seeded _ _ _ committed =>
          obtain ⟨hrem, happr⟩ := hcr.received _ _ _ waiting
          have hnode : value.nodeId = S.name x.other.other := (hpl.tasks _ waiting).1
          rw [Side.other_other] at hnode
          refine ⟨hrem, fun hseed => ?_⟩
          rw [← hnode, (step_receive hstep rfl committed).1, happr hseed]
  case owner =>
    intro hunseeded hloc
    rw [Pair.update_node_self] at hloc ⊢
    rw [hself]
    rcases step_localApproval_cases hstep hloc with hold | howed | ⟨value, now, htx, -, -⟩
    · rcases hcr.owner hunseeded hold with howed | hrem
      · exact (hset howed).imp_right fun ⟨_, _, htask⟩ => (hcr.settles _ _ htask).1
      · exact .inr hrem
    · exact .inl howed
    -- A seed alone approves when a message is recorded.
    · rcases Act.transaction_runBy htx with ⟨-, rfl | ⟨nonce, rfl⟩⟩
      · have hflag := (hpl.tasks _ (mem_tasks_of_advance hstep)).2.1
        rw [hunseeded] at hflag
        cases hflag
      · have hflag := (hpl.tasks _ (mem_tasks_of_advance hstep)).2
        rw [hunseeded] at hflag
        cases hflag
  case seed =>
    intro hseed hloc
    rw [Pair.update_node_self] at hloc ⊢
    rcases step_localApproval_cases hstep hloc with hold | howed | ⟨value, now, htx, -, hrem⟩
    · rcases hcr.seed hseed hold with howed | hrem
      · exact (hset howed).imp_right fun ⟨_, _, htask⟩ => hmono ((hcr.settles _ _ htask).2 hseed)
      · exact .inr (hmono hrem)
    · exact .inl howed
    · refine .inr (hrem.trans ?_)
      rcases Act.transaction_runBy htx with ⟨-, rfl | ⟨nonce, rfl⟩⟩
      · exact (hpl.tasks _ (mem_tasks_of_advance hstep)).2.2
      · exact (hcr.received _ _ _ (mem_tasks_of_advance hstep)).2 hseed

end CrossStep

/-- What holds of the two nodes and the network throughout the exchange. -/
structure Exchange (S : Setting) (p : Pair) : Prop where
  plain : ∀ side, Plain S side (p.node side)
  cross : ∀ side, Cross S p side

theorem exchange_init (S : Setting) (now : Side → Int) : Exchange S (Pair.init S now) where
  plain side := by
    constructor <;> simp [Pair.init, Node.init]
  cross side := by
    constructor <;> simp [Pair.init, Node.init, localApproval]

theorem Cross.drop {p : Pair} {x : Side} (hcr : Cross S p x) :
    Cross S { p with net := p.net.erase (side, packet) } x where
  statements := fun value hval => hcr.statements value (mem_of_mem_erase hval)
  replies := fun value hval => hcr.replies value (mem_of_mem_erase hval)
  introduced := hcr.introduced
  received := hcr.received
  settles := hcr.settles
  owner := hcr.owner
  seed := hcr.seed

/-- A step that records no refusal over an approval keeps the facts of the exchange. -/
theorem Exchange.step {p p' : Pair} {a : PairAct} (hinv : Exchange S p)
    (hstep : pairStep S p a = some p') (hnone : overtaken S ⟨p, a, p'⟩ = false) : Exchange S p' := by
  cases a with
  | drop =>
    cases hstep
    exact ⟨hinv.plain, fun x => (hinv.cross x).drop⟩
  | run side a =>
    simp only [pairStep, ite_none_right_eq_some, map_eq_some_iff] at hstep
    obtain ⟨hperm, ⟨n', packets⟩, hact, rfl⟩ := hstep
    have hnode : Onlyne.Trust.step (S.config side) (p.node side) a = some n' := by
      simp [Onlyne.Trust.step, hact]
    have hoth := hinv.cross side.other
    refine ⟨fun x => ?_, fun x => ?_⟩
    · by_cases hx : x = side
      · subst hx
        rw [Pair.update_node_self]
        refine (hinv.plain x).step hperm (fun value hval => ?_) (fun value hval => ?_) hnode
        · exact hoth.statements value (by simpa using hval)
        · exact (hoth.replies value (by simpa using hval)).1
      · rw [Pair.update_node_ne _ _ _ hx]
        exact hinv.plain x
    · by_cases hx : x = side
      · subst hx
        exact (hinv.cross x).step_self (hinv.plain x) hperm hact hnone
      · obtain rfl : side = x.other := by
          cases x <;> cases side <;> simp_all [Side.other]
        exact (hinv.cross x).step_other (hinv.plain _) hperm hact hnone

/-- **Trust agreement.**  Two nodes exchange statements over a network that delays, reorders, repeats
and drops them, without revocation and rotation.  When no refusal was recorded over a recorded
approval, then in every reached state in which both rows are approved locally and neither node owes
the other a statement, both rows are trusted. -/
theorem both_trusted {S : Setting} {now : Side → Int} {h : List (Transition Pair PairAct)} {p : Pair}
    (hrun : Run (pairStep S) (Pair.init S now) h p) (hnone : ∀ t ∈ h, overtaken S t = false)
    (happroved : ∀ side, localApproval (p.node side).store (S.name side.other) = true)
    (hsettled : ∀ side, (p.node side).store.outbound.get (S.name side.other) = none) (side : Side) :
    trustedRow ((p.node side).store.trust.get (S.name side.other)) = true := by
  have hinv : Exchange S p := hrun.invariant_of (I := Exchange S)
    (C := fun t => overtaken S t = false) hnone (exchange_init S now)
    fun _ _ _ hI hstep hC => hI.step hstep hC
  have hrem : remoteApproval (p.node side).store (S.name side.other) = true := by
    cases hseed : S.seeded side.other with
    | false =>
      -- The owner of the other node approved, and its statement is answered.
      have hown := (hinv.cross side).owner hseed (by simpa using happroved side.other)
      have hout := hsettled side.other
      simp only [Side.other_other] at hout
      simpa [hout] using hown
    | true =>
      -- The other node approves every message, so the first one brought its approval.
      have hfst := (hinv.cross side.other).seed hseed (by simpa using happroved side)
      simpa [hsettled side] using hfst
  obtain ⟨row, hrow, hbit⟩ := remoteApproval_iff.mp hrem
  obtain ⟨row', hrow', hloc⟩ := localApproval_iff.mp (happroved side)
  cases hrow.symm.trans hrow'
  rw [hrow]
  simpa [trustedRow] using ((hinv.plain side).rows _ row hrow).2.mpr ⟨hloc, hbit⟩

namespace Scenario

/-- The nodes `a` and `b`, without seeds. -/
def aliceAndBob : Setting where
  name | .left => "a" | .right => "b"
  url | .left => "https://a" | .right => "https://b"
  own | .left => "ka" | .right => "kb"
  seeds _ := []
  address _ := true
  crypto := crypto

/-- The approval of `a`. -/
def aliceApproves : TrustStatement := stated "a" "ka" "b" "kb" true "s1" 0

/-- The reply of `b` before its owner has approved. -/
def bobRefuses : TrustStatement := stated "b" "kb" "a" "ka" false "r1" 0 (some "s1")

/-- The approval of `b`. -/
def bobApproves : TrustStatement := stated "b" "kb" "a" "ka" true "s2" 0

/-- The reply of `a` to the approval of `b`. -/
def aliceAgrees : TrustStatement := stated "a" "ka" "b" "kb" true "r2" 0 (some "s2")

/-- The owner of `a` approves; `b` records the invitation and sends the reply of a node whose owner
has not approved. -/
def aliceInvites : List PairAct :=
  [.run .left (.request "b" "fp-kb" (identity "b" "kb")),
    .run .left (.advance (.request (identity "b" "kb") "fp-ka") (.id "s1")),
    .run .left (.advance (.send (identity "b" "kb") true "s1" none) .go),
    .run .right (.introduce aliceApproves),
    .run .right (.advance (.receive aliceApproves false) .go),
    .run .right (.advance (.introduced (receiveEntry none aliceApproves "fp-ka" false 0) "s1")
      (.id "r1"))]

/-- The reply of `b` reaches the waiting call of `a`. -/
def aliceHearsRefusal : List PairAct :=
  [.run .left (.advance (.await (identity "b" "kb") "s1") (.answer bobRefuses)),
    .run .left (.advance (.receiveReply bobRefuses false "s1") .go),
    .run .left (.advance (.settle "b" "s1") .go)]

/-- The owner of `b` approves, `a` records it and its reply settles the statement of `b`. -/
def bobAccepts : List PairAct :=
  [.run .right (.request "a" "fp-ka" (identity "a" "ka")),
    .run .right (.advance (.request (identity "a" "ka") "fp-kb") (.id "s2")),
    .run .right (.advance (.send (identity "a" "ka") true "s2" none) .go),
    .run .left (.introduce bobApproves), .run .left (.advance (.receive bobApproves false) .go),
    .run .left (.advance (.introduced bobTrusted "s2") (.id "r2")),
    .run .right (.advance (.await (identity "a" "ka") "s2") (.answer aliceAgrees)),
    .run .right (.advance (.receiveReply aliceAgrees false "s2") .go),
    .run .right (.advance (.settle "a" "s2") .go)]

/-- The first reply of `b` is delivered after everything else. -/
def overtakenReply : List PairAct :=
  aliceInvites ++ bobAccepts ++ aliceHearsRefusal ++
    [.drop .right (.statement aliceApproves), .drop .left (.reply bobRefuses),
      .drop .left (.statement bobApproves), .drop .right (.reply aliceAgrees)]

end Scenario

open Scenario in
/-- Messages that arrive in the order they were sent end in agreement. -/
theorem both_trusted_inOrder : ∃ h p, Run (pairStep aliceAndBob) (Pair.init aliceAndBob fun _ => 0) h p ∧
      (∀ t ∈ h, overtaken aliceAndBob t = false) ∧ trustedRow ((p.node .left).store.trust.get "b") = true ∧
      trustedRow ((p.node .right).store.trust.get "a") = true := by
  obtain ⟨h, p, hrun, hnone, ⟨hleft, hright⟩, houtLeft, houtRight⟩ := exists_run (pairStep aliceAndBob)
    (Pair.init aliceAndBob fun _ => 0)
    (aliceInvites ++ aliceHearsRefusal ++ bobAccepts)
    (fun h p => (∀ t ∈ h, overtaken aliceAndBob t = false) ∧ (localApproval (p.node .left).store "b" = true ∧
        localApproval (p.node .right).store "a" = true) ∧
      (p.node .left).store.outbound.get "b" = none ∧ (p.node .right).store.outbound.get "a" = none)
    (by decide)
  have hboth := both_trusted hrun hnone (fun side => by cases side; exacts [hleft, hright])
    (fun side => by cases side; exacts [houtLeft, houtRight])
  exact ⟨h, p, hrun, hnone, hboth .left, hboth .right⟩

open Scenario in
/-- A refusal that arrives after the approval it preceded undoes the agreement for good: both owners
have approved, nothing is in flight and nothing is owed, yet the row of `b` at `a` is not trusted. -/
theorem overtaken_reply_demotes : ∃ h p, Run (pairStep aliceAndBob) (Pair.init aliceAndBob fun _ => 0) h p ∧
      localApproval (p.node .left).store "b" = true ∧ localApproval (p.node .right).store "a" = true ∧
      (p.net = [] ∧ (p.node .left).tasks = [] ∧ (p.node .right).tasks = []) ∧
      (p.node .left).store.outbound.rows = [] ∧ (p.node .right).store.outbound.rows = [] ∧
      trustedRow ((p.node .left).store.trust.get "b") = false := by
  exact exists_run _ _ overtakenReply _ (by decide)

end Onlyne.Trust
