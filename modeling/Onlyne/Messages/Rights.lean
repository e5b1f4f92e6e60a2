import Onlyne.Messages.Changes

/-!
# Messages: who may post and read

The rights of a peer are three tables: memberships, the notices that tell a peer of its membership,
and reply permits.  `step_enrols` and `step_permits` say once what a call can do to them.
-/

namespace Onlyne.Messages

open Foundation Option

section Rights

variable {D : Type}

/-! ## What an admission has checked -/

variable {ctx : Context D} {tx s : Store D} {message : Message} {input : AdmitInput} {ref : ThreadRef}
  {staged : Staged}

theorem owner_ok {owner : NodeId} {u : Unit} (h : ctx.owner owner = .ok u) : owner = ctx.node := by
  simpa [Context.owner] using h

/-- A call has run its work when it has filled its idempotency row. -/
def ran (t : Transition (Store D) Call) : Bool :=
  t.act.slot.any fun row =>
    (t.before.idempotency.get row).isNone && (t.after.idempotency.get row).isSome

theorem ran_of_row {t : Transition (Store D) Call} {row : NodeId × String × String}
    (named : t.act.slot = some row) (free : t.before.idempotency.get row = none)
    (answered : (t.after.idempotency.get row).isSome) : ran t = true := by
  simp [ran, named, free, answered]

/-- What the checks of an admission say about the rights of its sender. -/
structure Staged.Admissible (staged : Staged) (ctx : Context D) (tx : Store D) (message : Message)
    (input : AdmitInput) : Prop where
  owner : staged.threadRef.owner = ctx.node
  landed : Landed tx.log staged
  -- A permit is spent when the sender could not post without it.
  spent : mayPost tx staged.threadRef staged.firstContact message.sender = false →
    staged.spent = allowedPermit ctx tx message input staged.threadRef ∧ staged.spent ≠ none
  unspent : mayPost tx staged.threadRef staged.firstContact message.sender = true →
    staged.spent = none
  drawn : staged.firstContact = true → staged.threadRef.id ∈ input.uuids

theorem landing_drawn {contact : Bool} (h : landing ctx tx message input = .ok (ref, contact))
    (hcont : contact = true) : ref.id ∈ input.uuids := by
  subst hcont
  simp only [landing, bind_eq_ok] at h
  obtain ⟨reply, -, h⟩ := h
  split at h
  · cases h
  · split at h
    · cases h
    · split at h
      · cases h
      · simp only [bind_eq_ok] at h
        obtain ⟨answer, -, h⟩ := h
        split at h
        · split at h
          · next id hid =>
            cases h
            exact List.mem_of_find?_eq_some hid
          · cases h
        · cases h

theorem stage_admissible (h : stage ctx tx message input = .ok staged) : staged.Admissible ctx tx message input := by
  have hland := stage_landed h
  simp only [stage, bind_eq_ok, failIf_eq_ok, Except.ok.injEq] at h
  obtain ⟨⟨ref, contact⟩, hlanding, thread, hthr, -, hal, -, -, -, -, nodes, -, text, -, rfl⟩ := h
  simp only [landingThread, bind_eq_ok] at hthr
  obtain ⟨_, hown, -⟩ := hthr
  refine ⟨owner_ok hown, hland, ?_, ?_, landing_drawn hlanding⟩
  · intro hmay
    simp only [hmay, Bool.not_false, Bool.true_and, isNone_eq_false_iff, isSome_iff_ne_none] at hal
    simp only [hmay]
    exact ⟨rfl, hal⟩
  · intro hmay
    simp only [hmay]
    rfl

/-! ## Memberships and notices -/

inductive Enrols (ctx : Context D) (s s' : Store D) : Call → Prop where
  | kept {call} (member : s'.member = s.member) (notice : s'.notice = s.notice) : Enrols ctx s s' call
  | confirmed {auth id mutation input grant}
      (row : s.notice.get id = some grant) (member : s'.member = s.member)
      (notice : s'.notice = s.notice.put id { grant with acked := true }) :
      Enrols ctx s s' (.ackGrant auth id mutation input)
  -- A first contact is a member of the thread it opens.
  | welcomed {auth} {request : SendRequest} {input : AdmitInput} {ref : ThreadRef}
      (owner : ref.owner = ctx.node) (free : s.thread.get ref = none) (opened : (s'.thread.get ref).isSome)
      (member : s'.member = s.member.put (ref, request.message.sender)
        (contactMember request.message.sender input.revision))
      (notice : s'.notice = s.notice.put input.revision
        (grantNotice ref request.message.sender input.revision)) (drawn : ref.id ∈ input.uuids) :
      Enrols ctx s s' (.admitRequest auth request input)
  | changed {auth : Auth} {ref : ThreadRef} {peer patch mutation input thread} {next : Member} {slot}
      (caller : auth.actor = ref.owner ∨ auth.actor = peer) (owner : ref.owner = ctx.node)
      (named : (Call.member auth ref peer patch mutation input).slot = some slot)
      (free : s.idempotency.get slot = none) (answered : (s'.idempotency.get slot).isSome)
      (row : s.thread.get ref = some thread)
      (asks : membership (auth.actor = ref.owner) thread (s.member.get (ref, peer)) peer patch
        input = .ok next) (member : s'.member = s.member.put (ref, peer) next)
      (notice : s'.notice = if begins ref peer (s.member.get (ref, peer)) next then
        s.notice.put next.revision (grantNotice ref peer next.revision) else s.notice)
      (complete : ref.id ≠ "") : Enrols ctx s s' (.member auth ref peer patch mutation input)

theorem loadThread_owner {thread : Thread} (h : loadThread ctx tx ref = .ok thread) :
    ref.owner = ctx.node ∧ ref.id ≠ "" := by
  simp only [loadThread, requireThreadRef, bind_eq_ok, failIf_eq_ok, decide_eq_false_iff_not] at h
  obtain ⟨-, hid, _, hown, -⟩ := h
  exact ⟨owner_ok hown, hid⟩

theorem append_enrols {auth : Auth} {request : SendRequest} (message : Table MessageRef (Remembered D))
    (h : stage ctx s request.message input = .ok staged) :
    Enrols ctx s ((appended ctx s auth request input staged).withMessage message) (.admitRequest auth request input) := by
  obtain ⟨hown, hland, -, -, hdrawn⟩ := stage_admissible h
  obtain ⟨_, _, _, _, _, hrows⟩ := append_rows ctx s auth request input staged
  rw [hrows]
  unfold Landed at hland
  unfold openContact
  cases hcont : staged.firstContact with
  | false => exact .kept rfl rfl
  | true =>
    rw [hcont] at hland
    exact .welcomed hown hland.1 (by simp) rfl rfl (hdrawn hcont)

/-! ## Permits -/

inductive Permits (ctx : Context D) (s s' : Store D) : Call → Prop where
  | kept {call} (permit : s'.permit = s.permit) : Permits ctx s s' call
  | written {auth} {permit : ReplyPermit} {mutation input slot}
      (named : (Call.permits auth permit mutation input).slot = some slot)
      (free : s.idempotency.get slot = none) (answered : (s'.idempotency.get slot).isSome)
      (positive : 1 ≤ permit.remaining)
      (permits : s'.permit = s.permit.put (permit.messageRef, permit.grantee) permit) :
      Permits ctx s s' (.permits auth permit mutation input)
  -- One reply of a permit is used up.
  | spent {auth} {request : SendRequest} {input original ref} {permit : ReplyPermit} (answers : request.message.inReplyTo = some original)
      (allowed : allowedPermit ctx s request.message input ref = some permit)
      (permits : s'.permit = s.permit.put (original, request.message.sender)
        { permit with remaining := permit.remaining - 1 }) :
      Permits ctx s s' (.admitRequest auth request input)

theorem allowedPermit_some {permit : ReplyPermit} (h : allowedPermit ctx tx message input ref = some permit) :
    ∃ original, message.inReplyTo = some original ∧ tx.permit.get (original, message.sender) = some permit ∧
      permitAllows ctx permit message input.permitNow = true ∧ permit.landing = ref := by
  obtain ⟨hperm, hal⟩ := filter_eq_some_iff.mp h
  obtain ⟨original, hans, hrow⟩ := bind_eq_some_iff.mp hperm
  rw [Bool.and_eq_true, decide_eq_true_eq] at hal
  exact ⟨original, hans, hrow, hal.1, hal.2⟩

theorem append_permits {auth : Auth} {request : SendRequest} (message : Table MessageRef (Remembered D))
    (h : stage ctx s request.message input = .ok staged) :
    Permits ctx s ((appended ctx s auth request input staged).withMessage message) (.admitRequest auth request input) := by
  obtain ⟨-, -, hsp, hunspent, -⟩ := stage_admissible h
  obtain ⟨_, _, _, _, _, hrows⟩ := append_rows ctx s auth request input staged
  rw [hrows]
  cases hmay : mayPost s staged.threadRef staged.firstContact request.message.sender with
  | true =>
    rw [hunspent hmay]
    exact .kept rfl
  | false =>
    obtain ⟨hal, hsome⟩ := hsp hmay
    obtain ⟨permit, hperm⟩ := ne_none_iff_exists'.mp hsome
    rw [hperm] at hal ⊢
    obtain ⟨original, hans, -, -, -⟩ := allowedPermit_some hal.symm
    refine .spent hans hal.symm ?_
    dsimp only [spendPermit]
    rw [hans]

theorem works_rights {call : Call} {result : Result} {slot : NodeId × String × String} {digest : D}
    (named : call.slot = some slot) (free : s.idempotency.get slot = none) (h : Works ctx s call result tx) :
    Enrols ctx s { tx with idempotency := tx.idempotency.put slot ⟨digest, result⟩ } call ∧
      Permits ctx s { tx with idempotency := tx.idempotency.put slot ⟨digest, result⟩ } call := by
  cases h with
  | create run =>
    obtain ⟨_, _, rfl⟩ := createWork_rows run
    exact ⟨.kept rfl rfl, .kept rfl⟩
  | close run =>
    obtain ⟨_, _, rfl⟩ := closeWork_rows run
    exact ⟨.kept rfl rfl, .kept rfl⟩
  | member caller run =>
    obtain ⟨thread, next, _, _, hthr, hnext, rfl⟩ := memberWork_rows run
    obtain ⟨hown, hid⟩ := loadThread_owner hthr
    exact ⟨.changed caller hown named free (by simp) (loadThread_ok hthr) hnext rfl rfl hid, .kept rfl⟩
  | permits positive run =>
    rw [permitsWork_rows run]
    exact ⟨.kept rfl rfl, .written named free (by simp) positive rfl⟩
  | ackGrant run =>
    rcases ackGrantWork_rows run with rfl | ⟨grant, hrow, rfl⟩
    · exact ⟨.kept rfl rfl, .kept rfl⟩
    · exact ⟨.confirmed hrow rfl rfl, .kept rfl⟩
  | ack run =>
    obtain ⟨_, _, -, rfl⟩ := ackWork_rows run
    exact ⟨.kept rfl rfl, .kept rfl⟩

end Rights

section Step

variable {D : Type} [DecidableEq D] {ctx : Context D} {s s' : Store D} {call : Call}

section

variable (hstep : step ctx s call = some s')
include hstep

/-- What a call can do to the memberships, their notices and the reply permits. -/
theorem step_rights : Enrols ctx s s' call ∧ Permits ctx s s' call := by
  cases step_effect hstep with
  | kept | remembered | sent => exact ⟨.kept rfl rfl, .kept rfl⟩
  | appended message staging => exact ⟨append_enrols message staging, append_permits message staging⟩
  | worked digest named free works => exact works_rights named free works
  | listed run =>
    obtain ⟨_, rfl⟩ := attention_ok run
    exact ⟨.kept rfl rfl, .kept rfl⟩
  | expired run =>
    obtain ⟨_, _, _, _, _, rfl⟩ := expire_rows run
    exact ⟨.kept rfl rfl, .kept rfl⟩

theorem step_enrols : Enrols ctx s s' call := (step_rights hstep).1

theorem step_permits : Permits ctx s s' call := (step_rights hstep).2

theorem step_thread {ref : ThreadRef} (hrow : s.thread.get ref ≠ none) : s'.thread.get ref ≠ none := by
  rcases admission_or_upkeep hstep with ⟨auth, request, input, rfl⟩ | hkeep
  · cases step_effect hstep with
    | kept => exact hrow
    | remembered => exact hrow
    | worked digest named => cases named
    | appended =>
      obtain ⟨_, _, _, _, _, hrows⟩ := append_rows ctx s auth request input _
      unfold appended at hrows
      rw [hrows]
      rw [Table.get_put]
      split_ifs
      · exact some_ne_none _
      · exact hrow
  · exact hkeep.thread hrow

end

end Step

end Onlyne.Messages
