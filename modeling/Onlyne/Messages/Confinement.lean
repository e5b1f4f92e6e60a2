import Mathlib.Data.Fintype.EquivFin
import Onlyne.Messages.Node

/-!
# Messages: what the thread service tells a peer

A peer that is not the node itself should learn nothing from the thread service but what involves it:
the threads it has a membership row in, and the grants and notices that name it.  Two stores that agree
on those are `AgreeFor` it.

`consult_confined` says for which reads the two stores give the same answer, and that there are no
others.  The grant listing is the one that does not filter by its caller, and the reads of one thread
answer `forbidden` for a thread that exists and `not_found` for one that does not.
-/

namespace Onlyne.Messages

open Foundation Table List

/-! ## The reads of the thread service -/

inductive ThreadRead where
  | describe (ref : ThreadRef)
  | list (options : PageOptions Scope)
  | members (ref : ThreadRef) (options : PageOptions Scope)
  | grants (options : PageOptions Scope)
  | issued (options : PageOptions Scope)

inductive ThreadFound where
  | description (value : ThreadDescription)
  | threads (value : Page Thread Scope)
  | members (value : Page Member Scope)
  | grants (value : Page Grant Scope)

section Confinement

variable {D : Type} {options : PageOptions Scope}

def consult (ctx : Context D) (auth : Auth) (tx : Store D) (held : Holdings) :
    ThreadRead → Except Halt ThreadFound
  | .describe ref => (describe ctx tx auth ref).map .description
  | .list options => (listThreads ctx tx auth options).map .threads
  | .members ref options => (members ctx tx auth ref options).map .members
  | .grants options => (grants held auth options).map .grants
  | .issued options => (issued ctx tx auth options).map .grants

/-! ## What involves a caller -/

def Grant.involves (grant : Grant) (caller : NodeId) : Bool :=
  grant.recipient = caller || grant.threadRef.owner = caller

def involves (tx : Store D) (caller : NodeId) (ref : ThreadRef) : Bool :=
  ref.owner = caller ||
    tx.member.rows.any fun row => row.1.1 = ref && (row.1.2 = caller || row.2.peer = caller)

structure AgreeFor (caller : NodeId) (s s' : Store D) (held held' : Holdings) : Prop where
  rows : s' = { s with
    thread := s'.thread
    member := s'.member
    notice := s'.notice }
  known : held'.known = held.known
  thread : s'.thread.rows.filter (fun row => involves s' caller row.1) =
    s.thread.rows.filter fun row => involves s caller row.1
  member : s'.member.rows.filter (fun row => involves s' caller row.1.1) =
    s.member.rows.filter fun row => involves s caller row.1.1
  notice : s'.notice.rows.filter (fun row => row.2.involves caller) =
    s.notice.rows.filter fun row => row.2.involves caller
  grant : held'.grant.rows.filter (fun row => row.2.involves caller) =
    held.grant.rows.filter fun row => row.2.involves caller

def accepted (options : PageOptions Scope) (scope : Scope) : Bool :=
  (options.size matches .ok _) && (options.after scope matches .ok _)

/-- The answer to the read depends only on what involves the caller. -/
def confined (ctx : Context D) (caller : NodeId) (tx : Store D) : ThreadRead → Bool
  | .list _ | .issued _ => true
  | .describe ref | .members ref _ =>
    caller = "" || ref.id = "" || ref.owner ≠ ctx.node || involves tx caller ref
  | .grants options => caller = "" || !accepted options (.grants caller)

/-! ## What involves the caller is read alike -/

section Agree

variable {ctx : Context D} {auth : Auth} {caller : NodeId} {s s' : Store D} {held held' : Holdings}

theorem involves_of_row {row : (ThreadRef × NodeId) × Member} (hrow : row ∈ s.member.rows)
    (hpeer : row.1.2 = caller ∨ row.2.peer = caller) : involves s caller row.1.1 = true := by
  unfold involves
  rw [Bool.or_eq_true, any_eq_true]
  exact .inr ⟨row, hrow, by simpa using hpeer⟩

theorem AgreeFor.involves_eq (h : AgreeFor caller s s' held held') (ref : ThreadRef) :
    involves s' caller ref = involves s caller ref := by
  have hsome {s s' : Store D} (hmemb : s'.member.rows.filter (fun row => involves s' caller row.1.1) =
        s.member.rows.filter fun row => involves s caller row.1.1)
      (hinv : involves s' caller ref = true) : involves s caller ref = true := by
    unfold involves at hinv
    rw [Bool.or_eq_true, any_eq_true] at hinv
    rcases hinv with hown | ⟨row, hrow, hpeer⟩
    · unfold involves
      rw [hown, Bool.true_or]
    · simp only [Bool.and_eq_true, decide_eq_true_eq, Bool.or_eq_true] at hpeer
      obtain ⟨rfl, hpeer⟩ := hpeer
      have hmem : row ∈ s'.member.rows.filter fun row => involves s' caller row.1.1 :=
        mem_filter.mpr ⟨hrow, involves_of_row hrow hpeer⟩
      rw [hmemb] at hmem
      exact (mem_filter.mp hmem).2
  rw [Bool.eq_iff_iff]
  exact ⟨hsome h.member, hsome h.member.symm⟩

variable {ref : ThreadRef}

section

variable (h : AgreeFor caller s s' held held') (hinv : involves s caller ref = true)
include h hinv

theorem AgreeFor.thread_get : s'.thread.get ref = s.thread.get ref :=
  get_eq_of_filter_eq h.thread (fun _ => hinv) fun _ => (h.involves_eq ref).trans hinv

theorem AgreeFor.member_get (peer : NodeId) : s'.member.get (ref, peer) = s.member.get (ref, peer) :=
  get_eq_of_filter_eq h.member (fun _ => hinv) fun _ => (h.involves_eq ref).trans hinv

end

theorem AgreeFor.readThread_eq (h : AgreeFor auth.actor s s' held held') (hinv : involves s auth.actor ref = true) :
    readThread ctx s' auth ref = readThread ctx s auth ref := by
  have hcan : canRead s' auth.actor ref = canRead s auth.actor ref := by
    unfold canRead
    rw [h.thread_get hinv, h.member_get hinv]
  unfold readThread loadThread
  rw [h.thread_get hinv, hcan]

theorem AgreeFor.memberRows_eq (h : AgreeFor caller s s' held held') (hinv : involves s caller ref = true) :
    memberRows s' ref = memberRows s ref := by
  unfold memberRows
  rw [filter_eq_of_filter_eq h.member]
  · intro row _ href
    rwa [of_decide_eq_true href]
  · intro row _ href
    rw [of_decide_eq_true href]
    exact (h.involves_eq ref).trans hinv

theorem AgreeFor.issuedGrants_eq (h : AgreeFor caller s s' held held') :
    issuedGrants ctx s' caller = issuedGrants ctx s caller := by
  have hmembers : membershipsOf ctx s' caller = membershipsOf ctx s caller := by
    unfold membershipsOf
    rw [filter_map, filter_map, filter_filter, filter_filter, filter_eq_of_filter_eq h.member]
    · intro row hrow hpeer
      simp only [Function.comp_apply, Bool.and_eq_true, decide_eq_true_eq] at hpeer
      exact involves_of_row hrow (.inr hpeer.1.1)
    · intro row hrow hpeer
      simp only [Function.comp_apply, Bool.and_eq_true, decide_eq_true_eq] at hpeer
      exact involves_of_row hrow (.inr hpeer.1.1)
  have hnote : noticeOf ctx s' caller = noticeOf ctx s caller := by
    funext member
    apply get_filter_eq h.notice
    · intro notice haddr
      simp only [Bool.and_eq_true, decide_eq_true_eq] at haddr
      simp [Grant.involves, haddr.1]
    · intro notice haddr
      simp only [Bool.and_eq_true, decide_eq_true_eq] at haddr
      simp [Grant.involves, haddr.1]
  unfold issuedGrants
  rw [hmembers, hnote]

theorem listThreads_of_ne (hcal : auth.actor ≠ ctx.node) (options : PageOptions Scope)
    (s s' : Store D) : listThreads ctx s' auth options = listThreads ctx s auth options := by
  have hown : ctx.owner auth.actor = fail .forbidden "This node does not serve the requested owner." := by
    simp [Context.owner, failIf, hcal]
  unfold listThreads
  rw [hown]
  rfl

/-- A read of a thread that does not get to the rows answers alike in all stores. -/
theorem readThread_refused (h : auth.actor = "" ∨ ref.id = "" ∨ ref.owner ≠ ctx.node) :
    ∃ halt, ∀ s, readThread ctx s auth ref = .error halt := by
  by_cases hac : auth.actor = ""
  · refine ⟨.threw (.onlyne (onlyneError .unauthenticated "Authentication is required.")), ?_⟩
    intro s
    simp [readThread, failIf, fail, hac, bind, Except.bind]
  · by_cases hid : ref.id = ""
    · refine ⟨.threw (.onlyne (onlyneError .invalidRequest
        "Expected a ThreadRef with an owner and a non-empty id.")), ?_⟩
      intro s
      simp [readThread, loadThread, requireThreadRef, failIf, fail, hac, hid, bind, Except.bind]
    · have hown : ref.owner ≠ ctx.node := (h.resolve_left hac).resolve_left hid
      refine ⟨.threw (.onlyne (onlyneError .forbidden "This node does not serve the requested owner.")), ?_⟩
      intro s
      simp [readThread, loadThread, requireThreadRef, Context.owner, failIf, fail, hac, hid, hown, bind, Except.bind]

theorem page_of_refused {α : Type} {scope : Scope}
    (h : accepted options scope = false) (items items' : List α) (position : α → String) :
    page items' options scope position textFollows = page items options scope position textFollows := by
  rw [page_text, page_text]
  unfold accepted at h
  cases hsize : options.size with
  | error => rfl
  | ok =>
    cases haft : options.after scope with
    | error => rfl
    | ok => simp [hsize, haft] at h

/-- A read of a thread is confined when it is refused before the rows or involves the caller. -/
theorem confined_thread (h : (decide (caller = "") || decide (ref.id = "") || decide (ref.owner ≠ ctx.node) ||
      involves s caller ref) = true) :
    (caller = "" ∨ ref.id = "" ∨ ref.owner ≠ ctx.node) ∨ involves s caller ref = true := by
  simp only [Bool.or_eq_true, decide_eq_true_eq] at h
  rcases h with ((hac | hid) | hown) | hinv
  · exact .inl (.inl hac)
  · exact .inl (.inr (.inl hid))
  · exact .inl (.inr (.inr hown))
  · exact .inr hinv

theorem consult_eq_of_confined (hcal : auth.actor ≠ ctx.node)
    (h : AgreeFor auth.actor s s' held held') {read : ThreadRead} (hconf : confined ctx auth.actor s read = true) :
    consult ctx auth s' held' read = consult ctx auth s held read := by
  cases read with
  | list options =>
    unfold consult
    dsimp only
    rw [listThreads_of_ne hcal options s s']
  | issued =>
    unfold consult issued
    rw [h.issuedGrants_eq]
  | describe =>
    rcases confined_thread hconf with hrfs | hinv
    · obtain ⟨halt, hhalt⟩ := readThread_refused hrfs
      unfold consult describe
      dsimp only
      rw [hhalt, hhalt]
      rfl
    · unfold consult describe
      dsimp only
      rw [h.readThread_eq hinv, h.memberRows_eq hinv]
  | members =>
    rcases confined_thread hconf with hrfs | hinv
    · obtain ⟨halt, hhalt⟩ := readThread_refused hrfs
      unfold consult members
      dsimp only
      rw [hhalt, hhalt]
      rfl
    · unfold consult members
      dsimp only
      rw [h.readThread_eq hinv, h.memberRows_eq hinv]
  | grants =>
    simp only [confined, Bool.or_eq_true, decide_eq_true_eq, Bool.not_eq_true'] at hconf
    unfold consult grants
    dsimp only
    rcases hconf with hac | hrfs
    · rw [hac]
      rfl
    · rw [page_of_refused hrfs]

end Agree

/-! ## What does not involve the caller is told -/

section Leak

variable {ctx : Context D} {auth : Auth} {s : Store D} {ref : ThreadRef} {thread : Thread}

/-- A store that differs from `s` in the row of one thread that does not involve the caller. -/
theorem agreeFor_thread {caller : NodeId} (hoth : involves s caller ref = false) (held : Holdings) :
    (∀ thread, AgreeFor caller s { s with thread := s.thread.put ref thread } held held) ∧
      AgreeFor caller s { s with thread := s.thread.delete ref } held held := by
  refine ⟨fun thread => ⟨rfl, rfl, ?_, rfl, rfl, rfl⟩, ⟨rfl, rfl, ?_, rfl, rfl, rfl⟩⟩
  · exact filter_rows_put (fun _ => hoth) s.thread thread
  · exact filter_rows_delete (fun _ => hoth) s.thread

section

variable (hac : auth.actor ≠ "") (hid : ref.id ≠ "") (hown : ref.owner = ctx.node)
include hac hid hown

theorem readThread_missing (hmiss : s.thread.get ref = none) :
    readThread ctx s auth ref = fail .notFound "The requested record is unavailable." := by
  simp [readThread, loadThread, requireThreadRef, requireValue, Context.owner, failIf, fail, hac,
    hid, hown, hmiss, bind, Except.bind]

theorem readThread_stored (hstor : s.thread.get ref = some thread) :
    readThread ctx s auth ref = .ok thread ∨ readThread ctx s auth ref =
      fail .forbidden "The caller does not hold read access to this thread." := by
  cases hcan : canRead s auth.actor ref with
  | true =>
    left
    simp [readThread, loadThread, requireThreadRef, requireValue, Context.owner, failIf, hac, hid,
      hown, hstor, hcan, bind, Except.bind]
  | false =>
    right
    simp [readThread, loadThread, requireThreadRef, requireValue, Context.owner, failIf, fail,
      hac, hid, hown, hstor, hcan, bind, Except.bind]

end

def missing : Except Halt ThreadFound := fail .notFound "The requested record is unavailable."

theorem consult_ne_missing {read : ThreadRead} (hread : read = .describe ref ∨ ∃ options, read = .members ref options)
    (h : readThread ctx s auth ref = .ok thread ∨
      readThread ctx s auth ref = fail .forbidden "The caller does not hold read access to this thread.")
    (held : Holdings) : consult ctx auth s held read ≠ missing := by
  intro heq
  rcases hread with rfl | ⟨options, rfl⟩
  · unfold consult describe at heq
    rcases h with hthr | hthr <;> simp only [hthr] at heq <;> cases heq
  · unfold consult members at heq
    rcases h with hthr | hthr
    · cases hpage : page (sortedBy Member.peer (memberRows s ref)) options (.members ref) Member.peer textFollows with
      | error failure =>
        have hcode := page_text_error hpage
        simp only [hthr, bind, Except.bind, hpage] at heq
        cases heq
        cases hcode
      | ok shown =>
        simp only [hthr, bind, Except.bind, hpage] at heq
        cases heq
    · simp only [hthr] at heq
      cases heq

theorem thread_read_leaks {read : ThreadRead}
    (hread : read = .describe ref ∨ ∃ options, read = .members ref options) (hac : auth.actor ≠ "")
    (hid : ref.id ≠ "") (hown : ref.owner = ctx.node) (hoth : involves s auth.actor ref = false)
    (held : Holdings) : ∃ s', AgreeFor auth.actor s s' held held ∧
      consult ctx auth s' held read ≠ consult ctx auth s held read := by
  have hmiss {s : Store D} (hnone : s.thread.get ref = none) : consult ctx auth s held read = missing := by
    have hthr := readThread_missing hac hid hown hnone
    rcases hread with rfl | ⟨options, rfl⟩
    · unfold consult describe
      dsimp only
      rw [hthr]
      rfl
    · unfold consult members
      dsimp only
      rw [hthr]
      rfl
  have hstor {s : Store D} {thread : Thread} (hsome : s.thread.get ref = some thread) :
      consult ctx auth s held read ≠ missing :=
    consult_ne_missing hread (readThread_stored hac hid hown hsome) held
  obtain ⟨hput, hdel⟩ := agreeFor_thread hoth held
  cases hrow : s.thread.get ref with
  | none =>
    refine ⟨_, hput (freshThread ref "" ""), ?_⟩
    rw [hmiss hrow]
    exact hstor (get_put_self ..)
  | some =>
    refine ⟨_, hdel, ?_⟩
    rw [hmiss (get_delete_self ..)]
    exact (hstor hrow).symm

theorem exists_fresh_owner (caller : NodeId) (held : Holdings) (id : String) :
    ∃ owner, owner ≠ caller ∧ held.grant.get (owner, id) = none := by
  obtain ⟨owner, hown⟩ := Infinite.exists_notMem_finset (caller :: held.grant.rows.map fun row => row.1.1).toFinset
  rw [mem_toFinset, mem_cons, not_or] at hown
  refine ⟨owner, hown.1, ?_⟩
  cases hrow : held.grant.get (owner, id) with
  | none => rfl
  | some =>
    exact absurd (mem_map.mpr ⟨_, mem_rows.mpr hrow, rfl⟩) hown.2

theorem grants_leaks (hac : auth.actor ≠ "")
    (hcal : auth.actor ≠ ctx.node) (hacc : accepted options (.grants auth.actor) = true)
    (held : Holdings) : ∃ held', AgreeFor auth.actor s s held held' ∧
      consult ctx auth s held' (.grants options) ≠ consult ctx auth s held (.grants options) := by
  obtain ⟨size, hsize⟩ : ∃ size, options.size = .ok size := by
    unfold accepted at hacc
    cases hsize : options.size with
    | error => simp [hsize] at hacc
    | ok size => exact ⟨size, rfl⟩
  obtain ⟨after, haft⟩ : ∃ after, options.after (.grants auth.actor) = .ok after := by
    unfold accepted at hacc
    cases haft : options.after (.grants auth.actor) with
    | error => simp [haft] at hacc
    | ok after => exact ⟨after, rfl⟩
  have hans (held : Holdings) : consult ctx auth s held (.grants options) =
      .ok (.grants (cutPage (textAfter (heldGrants held) Grant.id after) size (.grants auth.actor) Grant.id)) := by
    unfold consult grants
    dsimp only
    rw [page_text, hsize, haft]
    simp [hac, failIf, checked, bind, Except.bind, Except.map]
  -- A new grant at the least position of the page, unlike the one that is first on it now.
  obtain ⟨owner, hown, hfree⟩ := exists_fresh_owner auth.actor held (nextText after)
  let rest := textAfter (heldGrants held) Grant.id after
  let grant : Grant :=
    { id := nextText after, recipient := ctx.node, threadRef := ⟨owner, "t"⟩
      revision := (rest.head?.map Grant.revision).getD "" ++ "x", acked := false }
  let held' : Holdings := { held with grant := held.grant.put (owner, grant.id) grant }
  have hrows : held'.grant.rows = ((owner, grant.id), grant) :: held.grant.rows := rows_put_of_get_none hfree grant
  refine ⟨held', ⟨rfl, rfl, rfl, rfl, rfl, ?_⟩, ?_⟩
  · rw [hrows, filter_cons_of_neg]
    simp [grant, Grant.involves, hown, hcal.symm]
  · have hlist : textAfter (heldGrants held') Grant.id after = grant :: rest := by
      unfold heldGrants
      rw [hrows, map_cons, filter_cons_of_pos (by rfl)]
      exact textAfter_sortedBy_cons Grant.id after rfl _
    rw [hans, hans, hlist]
    intro heq
    have hitems : (grant :: rest).take size = rest.take size := by
      injection heq with hfnd
      injection hfnd with hpage
      exact congrArg Page.items hpage
    obtain ⟨n, rfl⟩ := Nat.exists_eq_succ_of_ne_zero (PageOptions.size_pos hsize).ne'
    cases hrest : rest with
    | nil =>
      rw [hrest] at hitems
      cases hitems
    | cons =>
      rw [hrest, take_succ_cons, take_succ_cons, List.cons.injEq] at hitems
      have hrev := congrArg Grant.revision hitems.1
      simp [grant, hrest] at hrev

end Leak

/-- What the thread service tells a caller that is not the node: the answer to a read depends only on
what involves the caller exactly when the read is `confined`. -/
theorem consult_confined (ctx : Context D) (auth : Auth) (hcaller : auth.actor ≠ ctx.node)
    (s : Store D) (held : Holdings) (read : ThreadRead) : (∀ s' held', AgreeFor auth.actor s s' held held' →
      consult ctx auth s' held' read = consult ctx auth s held read) ↔ confined ctx auth.actor s read = true := by
  constructor
  · intro hsame
    by_contra hconf
    rw [Bool.not_eq_true] at hconf
    have hthr {ref : ThreadRef} (hread : read = .describe ref ∨ ∃ options, read = .members ref options)
        (hopen : (decide (auth.actor = "") || decide (ref.id = "") ||
          decide (ref.owner ≠ ctx.node) || involves s auth.actor ref) = false) : False := by
      simp only [Bool.or_eq_false_iff, decide_eq_false_iff_not, not_not] at hopen
      obtain ⟨⟨⟨hac, hid⟩, hown⟩, hoth⟩ := hopen
      obtain ⟨s', hagr, hne⟩ := thread_read_leaks hread hac hid hown hoth held
      exact hne (hsame s' held hagr)
    cases read with
    | list | issued => cases hconf
    | describe => exact hthr (.inl rfl) hconf
    | members ref options => exact hthr (.inr ⟨options, rfl⟩) hconf
    | grants =>
      simp only [confined, Bool.or_eq_false_iff, decide_eq_false_iff_not, Bool.not_eq_false'] at hconf
      obtain ⟨held', hagr, hne⟩ := grants_leaks hconf.1 hcaller hconf.2 held
      exact hne (hsame s held' hagr)
  · intro hconf s' held' hagr
    exact consult_eq_of_confined hcaller hagr hconf

end Confinement

namespace Scenario

/-- The thread `u`, with `b` as a member that may read it. -/
def joined : Store Digested where
  thread := (∅ : Table ThreadRef Thread).put contactRef (freshThread contactRef "u" "")
  member := (∅ : Table (ThreadRef × NodeId) Member).put (contactRef, "b")
    { peer := "b", state := .active, access := [.read], readScope := {}, revision := "r" }

/-- The node `n` was invited into a thread of `a`. -/
def invited : Holdings where
  known := ∅
  grant := (∅ : Table (NodeId × String) Grant).put ("a", "g")
    { id := "g", recipient := "n", threadRef := ⟨"a", "t"⟩, revision := "r", acked := false }

/-- How many grants an answer lists, and the error code of one that lists none. -/
def tells : Except Halt ThreadFound → Nat × Option ErrorCode
  | .ok (.grants shown) => (shown.items.length, none)
  | .ok _ => (0, none)
  | .error (.threw (.onlyne failure)) => (0, some failure.code)
  | .error _ => (0, none)

end Scenario

open Scenario in
/-- The member `b` of the thread `u` reads the same of it whatever else the node serves. -/
theorem consult_confined_member : "b" ≠ context.node ∧ ∀ s' held', AgreeFor "b" joined s' invited held' →
      consult context { actor := "b" } s' held' (.describe contactRef) =
        consult context { actor := "b" } joined invited (.describe contactRef) := by
  refine ⟨by decide, ?_⟩
  exact (consult_confined context { actor := "b" } (by decide) joined invited _).mpr (by decide)

open Scenario in
/-- The peer `c` is shown the grant `n` holds on a thread of `a`, and is told that the thread `u`
exists. -/
theorem consult_tells_others : AgreeFor "c" joined joined ⟨∅, ∅⟩ invited ∧
    tells (consult context { actor := "c" } joined invited (.grants {})) = (1, none) ∧
    tells (consult context { actor := "c" } joined ⟨∅, ∅⟩ (.grants {})) = (0, none) ∧
    AgreeFor "c" joined { joined with thread := joined.thread.delete contactRef } invited invited ∧
    tells (consult context { actor := "c" } joined invited (.describe contactRef)) = (0, some .forbidden) ∧
    tells (consult context { actor := "c" }
      { joined with thread := joined.thread.delete contactRef } invited (.describe contactRef)) =
      (0, some .notFound) := by
  refine ⟨⟨rfl, rfl, rfl, rfl, rfl, by decide⟩, by decide, by decide, ?_, by decide, by decide⟩
  exact (agreeFor_thread (by decide) invited).2

end Onlyne.Messages
