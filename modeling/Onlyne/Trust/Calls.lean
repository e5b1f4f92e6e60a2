import Onlyne.Trust.Node

/-!
# Trust: what one act can do to the calls in flight

`step_tasks` says once which calls can be in flight after an act: those that were, and the ones the
act starts.  `Resumes` lists the steps from one await point of a call to the next, each with what
the call read there; `Starts` adds the calls an act opens.  What a task remembers about the past is
proved against these two relations.
-/

namespace Onlyne.Trust

open Foundation List

/-- `Resumes cfg n task input next`: continuing `task` with `input` in the node `n` leads to the
call in flight `next`. -/
inductive Resumes (cfg : Config) (n : Node) : Task → Input → Task → Prop where
  | request {peer own id} {commit : RequestCommit}
      {store} (committed : requestTx n.store n.now peer own id = .ok (commit, store))
      (fresh : commit.fresh = true) (still : commit.rotating = false) :
      Resumes cfg n (.request peer own) (.id id) (.send peer true id none)
  | post {peer approved nonce old} : Resumes cfg n (.send peer approved nonce old) .go (.await peer nonce)
  | postRefused {peer : KeyIdentity} {approved nonce old code} :
      Resumes cfg n (.send peer approved nonce old) (.refused code) (.park peer.nodeId nonce)
  | answerRefused {peer : KeyIdentity} {nonce code} :
      Resumes cfg n (.await peer nonce) (.refused code) (.park peer.nodeId nonce)
  | answer {peer : KeyIdentity} {nonce} {value : TrustStatement} {seeded}
      (sender : value.nodeId = peer.nodeId) (key : value.publicKey = peer.publicKey)
      (echo : value.replyNonce = some nonce) (checked : receiveChecks cfg n value = .ok seeded) :
      Resumes cfg n (.await peer nonce) (.answer value) (.receiveReply value seeded nonce)
  | answerUnverified {peer : KeyIdentity} {nonce value} :
      Resumes cfg n (.await peer nonce) (.answer value) (.park peer.nodeId nonce)
  | reply {value : TrustStatement} {seeded nonce entry store}
      (committed : receiveTx cfg.crypto n.store n.now value seeded = .ok (entry, store)) :
      Resumes cfg n (.receiveReply value seeded nonce) .go (.settle value.nodeId nonce)
  | replyRefused {value : TrustStatement} {seeded nonce} :
      Resumes cfg n (.receiveReply value seeded nonce) .go (.park value.nodeId nonce)
  | introduced {value : TrustStatement} {seeded entry store}
      (committed : receiveTx cfg.crypto n.store n.now value seeded = .ok (entry, store)) :
      Resumes cfg n (.receive value seeded) .go (.introduced entry value.nonce)
  | gone {owed : TrustOutbound}
      (absent : ∀ row, n.store.trust.get owed.nodeId = some row → row.state = .revoked) :
      Resumes cfg n (.redrive owed) .go (.redriveDelete .gone owed)
  | present {owed : TrustOutbound} {entry : TrustEntry}
      (row : n.store.trust.get owed.nodeId = some entry) (kept : entry.state ≠ .revoked) :
      Resumes cfg n (.redrive owed) .go (.redriveOwn owed entry)
  | ownRotation {owed : TrustOutbound} {entry} (kind : owed.kind = .rotation) :
      Resumes cfg n (.redriveOwn owed entry) .go (.redriveWindow owed entry (n.fingerprint cfg))
  | ownStale {owed : TrustOutbound} {entry} (kind : owed.kind = .approval)
      (stale : owed.fingerprint ≠ n.fingerprint cfg) :
      Resumes cfg n (.redriveOwn owed entry) .go (.redriveDelete .stale owed)
  | ownDue {owed : TrustOutbound} {entry} (kind : owed.kind = .approval) :
      Resumes cfg n (.redriveOwn owed entry) .go (.redriveDue owed entry)
  | orphan {owed entry own} (closed : n.store.rotation = none) :
      Resumes cfg n (.redriveWindow owed entry own) .go (.redriveDelete .orphan owed)
  | abandon {owed entry own} : Resumes cfg n (.redriveWindow owed entry own) .go .redriveAbandon
  | windowDue {owed entry own} : Resumes cfg n (.redriveWindow owed entry own) .go (.redriveDue owed entry)
  | close {owed : TrustOutbound} (still : stillOwed n.store owed = true)
      (kind : owed.kind = .rotation) :
      Resumes cfg n (.redriveDelete .gone owed) .go .redriveClose
  | due {owed : TrustOutbound} {entry} (unblocked : owed.blocked = none) :
      Resumes cfg n (.redriveDue owed entry) .go (.redriveRetry owed entry)
  | dueBlocked {owed entry} : Resumes cfg n (.redriveDue owed entry) .go (.redriveUnblock owed entry)
  | unblocked {owed entry} (still : stillOwed n.store owed = true) :
      Resumes cfg n (.redriveUnblock owed entry) .go (.redriveRetry { owed with blocked := none } entry)
  | retry {owed entry live} :
      Resumes cfg n (.redriveRetry owed entry) (.live live) (.redriveRewrite owed entry live)
  | rewrite {owed : TrustOutbound} {entry : TrustEntry} {live id} (still : stillOwed n.store owed = true) :
      Resumes cfg n (.redriveRewrite owed entry live) (.id id)
        (.send live entry.localApproved id owed.previous)
  | rotateList {previous next} : Resumes cfg n (.rotateList previous next) .go
        (.rotateCommit previous next (rotationPeers n.store))
  | rotateCommit {previous next peers ids} :
      Resumes cfg n (.rotateCommit previous next peers) (.ids ids) (.rotateStart previous next peers)
  | rotateStart {previous next peers} :
      Resumes cfg n (.rotateStart previous next peers) .go (.rotateReplace previous next peers)
  | rotateReplace {previous next peers peer swapped} (member : peer ∈ peers) :
      Resumes cfg n (.rotateReplace previous next peers) (.replaced swapped true) (.rotateSend previous peer)
  | rotateSend {previous} {peer : TrustEntry} {live}
      {owed : TrustOutbound} (row : n.store.outbound.get peer.nodeId = some owed)
      (checked : inspected cfg peer.nodeId live = true) :
      Resumes cfg n (.rotateSend previous peer) (.live live)
        (.send live peer.localApproved owed.nonce (some previous))

/-- `Starts cfg n a task`: the act `a` of the node `n` leads to the call in flight `task`. -/
inductive Starts (cfg : Config) (n : Node) : Act → Task → Prop where
  | request {node} {live : KeyIdentity} (checked : inspected cfg node live = true) :
      Starts cfg n (.request node live.fingerprint live) (.request live (n.fingerprint cfg))
  | introduce {value seeded} (checked : receiveChecks cfg n value = .ok seeded) :
      Starts cfg n (.introduce value) (.receive value seeded)
  | authenticate {request : SignedRequest} (checked : authenticateChecks cfg n request = true) :
      Starts cfg n (.authenticate request)
        (.authenticate request.actor request.nonce request.timestamp)
  | redrive {node owed} (row : n.store.outbound.get node = some owed) : Starts cfg n .redrive (.redrive owed)
  | rotate {next} : Starts cfg n (.rotate next) (.rotateList n.own next)
  | advance {task next input} (waiting : task ∈ n.tasks)
      (resumes : Resumes cfg n task input next) : Starts cfg n (.advance task input) next

/-! ## Inversion -/

variable {n n' : Node} {task next : Task} {cfg : Config} {owed : TrustOutbound} {input : Input}
  {packets : List Packet} {a : Act} {tasks : List Task}

@[simp] theorem mem_spawn : task ∈ (n.spawn tasks).tasks ↔ task ∈ n.tasks ∨ task ∈ tasks := by
  simp [Node.spawn]

@[simp] theorem compareObligation_fst (s : TrustStore) (expected : TrustOutbound)
    (next : Option TrustOutbound) : (compareObligation s expected next).1 = stillOwed s expected := by
  unfold compareObligation
  split_ifs with h
  · cases next <;> exact h.symm
  · simpa using h

theorem resumes_close {reason : DropReason}
    (h : ((compareObligation n.store owed none).1 && reason = .gone && owed.kind = .rotation) = true) :
    Resumes cfg n (.redriveDelete reason owed) .go .redriveClose := by
  simp only [compareObligation_fst, Bool.and_eq_true, decide_eq_true_eq] at h
  obtain ⟨⟨hstill, rfl⟩, hkind⟩ := h
  exact .close hstill hkind

theorem resume_tasks (h : resume cfg n task input = some (n', packets)) (hnext : next ∈ n'.tasks) :
    next ∈ n.tasks ∨ Resumes cfg n task input next := by
  unfold resume at h
  split at h
  all_goals (try dsimp only at h)
  all_goals (repeat' split at h)
  all_goals cases h
  -- The step starts no call, or `next` was in flight before.
  all_goals (try exact .inl hnext)
  all_goals
    rcases mem_spawn.mp hnext with hold | hnew
    · exact .inl hold
  all_goals right
  all_goals (try obtain rfl := mem_singleton.mp hnew)
  all_goals first
    | exact absurd hnew not_mem_nil
    | exact .post
    | exact .retry
    | exact .rotateList
    | exact .rotateCommit
    | exact .rotateStart
    | exact .reply ‹_›
    | exact .introduced ‹_›
    | exact .present ‹_› ‹_›
    | exact .rotateSend ‹_› ‹_›
    | exact resumes_close ‹_›
    | exact .unblocked (by simpa using ‹(compareObligation _ _ _).1 = true›)
    | exact .rewrite (by simpa using ‹(compareObligation _ _ _).1 = true›)
    | exact .gone (by simp_all)
    | exact .request ‹_› (by simp_all) (by simp_all)
    | exact .answer (by simp_all) (by simp_all) (by simp_all) ‹_›
    | (obtain ⟨peer, hpeer, rfl⟩ := mem_map.mp hnew
       subst ‹_ = true›
       exact .rotateReplace hpeer)
    | (unfold afterOwn
       repeat' split
       all_goals constructor <;> assumption)
    -- A pass goes on by what the step read.
    | (revert hnew
       simp only [afterRefusal, afterWindow, afterDue]
       repeat' split
       all_goals intro hnew
       all_goals first
         | (cases hnew; done)
         | (cases mem_singleton.mp hnew; constructor <;> assumption))

theorem Resumes.of_tasks (h : Resumes cfg { n with tasks := tasks } task input next) :
    Resumes cfg n task input next := by
  cases h <;> constructor <;> assumption

theorem starts_of_spawn (hnext : Starts cfg n a next) (htask : task ∈ (n.spawn [next]).tasks) :
    task ∈ n.tasks ∨ Starts cfg n a task := by
  rcases mem_spawn.mp htask with hold | hnew
  · exact .inl hold
  · obtain rfl := mem_singleton.mp hnew
    exact .inr hnext

/-- The calls in flight after an act: those that were in flight, and the ones the act leads to. -/
theorem step_tasks (h : step cfg n a = some n') (htask : task ∈ n'.tasks) : task ∈ n.tasks ∨ Starts cfg n a task := by
  obtain ⟨⟨m, packets⟩, hact, rfl⟩ := Option.map_eq_some_iff.mp h
  cases a with
  | clock | loadSeeds | revoke =>
    cases hact
    exact .inl htask
  | crash =>
    cases hact
    exact absurd htask not_mem_nil
  | request =>
    simp only [act, Bool.and_eq_true, decide_eq_true_eq] at hact
    split_ifs at hact with hchk
    cases hact
    obtain ⟨hlive, rfl⟩ := hchk
    exact starts_of_spawn (.request hlive) htask
  | introduce =>
    simp only [act] at hact
    split at hact
    · cases hact
    · next seeded hchk =>
      cases hact
      exact starts_of_spawn (.introduce hchk) htask
  | authenticate =>
    simp only [act] at hact
    split_ifs at hact with hchk
    cases hact
    exact starts_of_spawn (.authenticate hchk) htask
  | redrive =>
    cases hact
    rcases mem_spawn.mp htask with hold | hnew
    · exact .inl hold
    · obtain ⟨⟨node, owed⟩, hrow, rfl⟩ := mem_map.mp hnew
      exact .inr (.redrive (Table.mem_rows.mp hrow))
  | rotate =>
    simp only [act] at hact
    split_ifs at hact
    cases hact
    exact starts_of_spawn .rotate htask
  | advance =>
    simp only [act] at hact
    split_ifs at hact with hwait
    rcases resume_tasks hact htask with hold | hnew
    · exact .inl (mem_of_mem_erase hold)
    · exact .inr (.advance hwait hnew.of_tasks)

/-- What the checks before `receive` report: whether a seed is configured for the sender, which then
names the statement's key. -/
theorem receiveChecks_ok {value : TrustStatement} {seeded : Bool} (h : receiveChecks cfg n value = .ok seeded) :
    seeded = (seedFor n.seeds value.nodeId).isSome ∧ ∀ seed, seedFor n.seeds value.nodeId = some seed →
        seed.fingerprint = cfg.crypto.fingerprint value.publicKey := by
  unfold receiveChecks at h
  dsimp only at h
  split_ifs at h
  split at h
  · next hnone =>
    cases h
    simp [hnone]
  · next seed hseed =>
    split_ifs at h with hdiffers
    cases h
    simp [hseed, not_not.mp hdiffers]

/-! ## Clock, seeds, own key and packets -/

/-- The clock moves by a `clock` act only, the seeds change by a `loadSeeds` act only, and the own key only while
`rotate` is inside `keys.replace`. -/
theorem step_now_seeds_own (h : step cfg n a = some n') :
    (n'.now = n.now ∨ a = .clock n'.now) ∧ (n'.seeds = n.seeds ∨ a = .loadSeeds n'.seeds) ∧
      (n'.own = n.own ∨ ∃ previous next peers, Task.rotateReplace previous next peers ∈ n.tasks) := by
  obtain ⟨⟨m, packets⟩, hact, rfl⟩ := Option.map_eq_some_iff.mp h
  unfold act at hact
  split at hact
  case h_10 task input =>
    split at hact
    · next hwait =>
      unfold resume at hact
      split at hact
      all_goals (try dsimp only at hact)
      all_goals (repeat' split at hact)
      all_goals cases hact
      all_goals first
        | exact ⟨.inl rfl, .inl rfl, .inl rfl⟩
        | exact ⟨.inl rfl, .inl rfl, .inr ⟨_, _, _, hwait⟩⟩
    · cases hact
  all_goals (repeat' split at hact)
  all_goals cases hact
  all_goals first
    | exact ⟨.inl rfl, .inl rfl, .inl rfl⟩
    | exact ⟨.inr rfl, .inl rfl, .inl rfl⟩
    | exact ⟨.inl rfl, .inr rfl, .inl rfl⟩

/-- Where a packet comes from: a call about to post its statement, or an introduction about to
answer. -/
inductive Posts (cfg : Config) (n : Node) : Act → Packet → Prop where
  | statement {peer approved nonce old} (waiting : Task.send peer approved nonce old ∈ n.tasks) :
      Posts cfg n (.advance (.send peer approved nonce old) .go)
        (.statement (statement cfg n peer approved nonce none old))
  | reply {entry : TrustEntry} {nonce id old} (waiting : Task.introduced entry nonce ∈ n.tasks) :
      Posts cfg n (.advance (.introduced entry nonce) (.id id))
        (.reply (Trust.statement cfg n entry.identity entry.localApproved id (some nonce) old))

theorem act_packets {packet : Packet} (h : act cfg n a = some (n', packets)) (hpkt : packet ∈ packets) :
    Posts cfg n a packet := by
  unfold act at h
  split at h
  case h_10 task input =>
    split at h
    · next hwait =>
      unfold resume at h
      split at h
      all_goals (try dsimp only at h)
      all_goals (repeat' split at h)
      all_goals cases h
      all_goals first
        | exact absurd hpkt not_mem_nil
        | obtain rfl := mem_singleton.mp hpkt
          first
            | exact .statement hwait
            | exact .reply hwait
    · cases h
  all_goals (repeat' split at h)
  all_goals cases h
  all_goals exact absurd hpkt not_mem_nil

end Onlyne.Trust
