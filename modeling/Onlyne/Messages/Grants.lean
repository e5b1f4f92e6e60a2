import Onlyne.Messages.Recipient
import Onlyne.Messages.Rights

/-!
# Messages: the grants of an owner

An owner keeps a notice for a membership under the revision of the membership, and `issued` lists the
notices of the memberships a peer holds now.

A call of the owner that sets an active membership active again writes a new revision and no notice.
`grants_resync_complete` says that the listing is complete in all states of a run exactly when the run
has no such call, and that a recipient recovers everything from a complete listing.
-/

namespace Onlyne.Messages

open Foundation Table List Option

/-! ## What a recipient asks for -/

section Issued

variable {D : Type}

/-- The pages of `issued` that a peer fetches one after the other. -/
def issuedPages (ctx : Context D) (tx : Store D) (auth : Auth) (size : Int) (fuel : Nat) : Except Halt (List Grant) :=
  allPages (fun cursor => issued ctx tx auth { cursor := cursor, pageSize := some size }) unending
    fuel none

def issuedAnswer (ctx : Context D) (tx : Store D) (node : NodeId) : Except Halt (List Offer) :=
  (issuedPages ctx tx { actor := node } 100 maxCursorPages).map fun grants => grants.map Grant.offer

/-- Following the pages of `issued`, whatever their size, a peer is told of every thread it is an
active member of. -/
def IssuedComplete (ctx : Context D) (tx : Store D) : Prop :=
  ∀ auth : Auth, auth.actor ≠ "" → auth.actor ≠ ctx.node → ∀ ref row,
    tx.member.get (ref, auth.actor) = some row → row.state = .active → ∀ size : Int,
    1 ≤ size → size ≤ 100 → ∃ fuel grants, issuedPages ctx tx auth size fuel = .ok grants ∧
      ∃ grant ∈ grants, grant.threadRef = ref

end Issued

/-! ## The notices of an owner -/

def Call.revision : Call → Option String
  | .admitRequest _ _ input => some input.revision
  | .member _ _ _ _ _ input => some input.revision
  | _ => none

def Call.threadIds : Call → List String
  | .admitRequest _ _ input => input.uuids
  | _ => []

section Owner

variable {D : Type} {current : Option Member} {grant : Grant} {auth : Auth} {size : Int}

def revisions (h : List (Transition (Store D) Call)) : List String :=
  h.filterMap fun t => t.act.revision

/-- The host does not give an id twice, and none is empty. -/
structure HostIds (h : List (Transition (Store D) Call)) : Prop where
  distinct : (revisions h).Nodup
  revision : "" ∉ revisions h
  thread : ∀ t ∈ h, "" ∉ t.act.threadIds

/-- What the memberships and notices of an owner have to do with each other, when the revisions in
`used` have been handed out. -/
structure Sound (ctx : Context D) (used : List String) (s : Store D) : Prop where
  member : ∀ ref peer row, s.member.get (ref, peer) = some row →
    row.peer = peer ∧ ref.owner = ctx.node ∧ row.revision ∈ used
  notice : ∀ id notice, s.notice.get id = some notice → notice.id = id ∧ notice.revision = id ∧
    notice.threadRef.owner = ctx.node ∧ notice.threadRef.id ≠ "" ∧ id ∈ used
  -- A notice under the revision of a membership was written together with it.
  paired : ∀ ref peer row notice, s.member.get (ref, peer) = some row →
    s.notice.get row.revision = some notice → notice.threadRef = ref ∧ notice.recipient = peer

def MemberPatch.wants (patch : MemberPatch) : Option MemberState :=
  match patch.state with
  | none => some .active
  | some (.known state) => some state
  | some (.unknown _) => none

variable {peer : NodeId} {patch : MemberPatch} {input : MutateInput} {next : Member} {ctx : Context D}
  {used : List String} {s s' : Store D} {thread : Thread}

theorem ownerMembership_row (h : ownerMembership current peer patch input = .ok next) :
    next.peer = peer ∧ next.revision = input.revision ∧ patch.wants = some next.state := by
  unfold MemberPatch.wants
  cases hst : patch.state with
  | none =>
    simp only [ownerMembership, hst, bind, Except.bind] at h
    repeat' split at h
    all_goals cases h
    all_goals exact ⟨rfl, rfl, rfl⟩
  | some wire =>
    cases wire with
    | unknown =>
      simp only [ownerMembership, hst] at h
      cases h
    | known =>
      simp only [ownerMembership, hst, bind, Except.bind] at h
      repeat' split at h
      all_goals cases h
      all_goals exact ⟨rfl, rfl, rfl⟩

theorem membership_row {isOwner : Bool} (h : membership isOwner thread current peer patch input = .ok next)
    (hcur : ∀ row, current = some row → row.peer = peer) : next.peer = peer ∧ next.revision = input.revision := by
  cases isOwner with
  | true =>
    obtain ⟨hpeer, hrev, -⟩ := ownerMembership_row h
    exact ⟨hpeer, hrev⟩
  | false =>
    simp only [membership, ownMembership, Bool.false_eq_true, if_false] at h
    cases current with
    | none =>
      simp only [bind_eq_ok] at h
      obtain ⟨_, -, _, -, h⟩ := h
      cases hpol : input.mayAdmit with
      | none =>
        rw [hpol] at h
        cases h
        exact ⟨rfl, rfl⟩
      | some =>
        rw [hpol] at h
        obtain ⟨_, -, h⟩ := bind_eq_ok.mp h
        cases h
        exact ⟨rfl, rfl⟩
    | some row =>
      dsimp only at h
      split_ifs at h
      · cases h
      · cases h
        exact ⟨hcur row rfl, rfl⟩
      · cases h

theorem ownMembership_stops {row : Member}
    (h : ownMembership thread (some row) peer patch input = .ok next) : next.state = .revoked := by
  simp only [ownMembership] at h
  split_ifs at h
  · cases h
  · cases h
    rfl
  · cases h

section

variable (h : Sound ctx used s)
include h

theorem Sound.mono {used' : List String} (hsub : used ⊆ used') : Sound ctx used' s where
  member ref peer row hrow := by
    obtain ⟨hpeer, hown, hused⟩ := h.member ref peer row hrow
    exact ⟨hpeer, hown, hsub hused⟩
  notice id notice hnote := by
    obtain ⟨hid, hrev, hown, hthr, hused⟩ := h.notice id notice hnote
    exact ⟨hid, hrev, hown, hthr, hsub hused⟩
  paired := h.paired

/-- A membership is written under a new revision, with its notice or without. -/
theorem Sound.enrol {ref : ThreadRef} (hfr : next.revision ∉ used)
    (hown : ref.owner = ctx.node) (hthr : ref.id ≠ "") (hpeer : next.peer = peer)
    (hmemb : s'.member = s.member.put (ref, peer) next)
    (hnote : s'.notice = s.notice ∨ s'.notice = s.notice.put next.revision (grantNotice ref peer next.revision)) :
    Sound ctx (used ++ [next.revision]) s' := by
  have hold := h.mono (subset_append_left used [next.revision])
  have hnotes (id : String) (notice : Grant) (hrow : s'.notice.get id = some notice) :
      id = next.revision ∧ notice = grantNotice ref peer next.revision ∨ s.notice.get id = some notice := by
    rcases hnote with hsame | hput
    · exact .inr (hsame ▸ hrow)
    · rw [hput] at hrow
      exact (get_put_cases hrow).imp_right And.right
  constructor
  · intro ref' peer' row hrow
    rw [hmemb] at hrow
    rcases get_put_cases hrow with ⟨hkey, rfl⟩ | ⟨-, hrow⟩
    · cases hkey
      exact ⟨hpeer, hown, by simp⟩
    · exact hold.member ref' peer' row hrow
  · intro id notice hrow
    rcases hnotes id notice hrow with ⟨rfl, rfl⟩ | hrow
    · exact ⟨rfl, rfl, hown, hthr, by simp⟩
    · exact hold.notice id notice hrow
  · intro ref' peer' row notice hrow hpair
    rw [hmemb] at hrow
    rcases get_put_cases hrow with ⟨hkey, rfl⟩ | ⟨-, hrow⟩
    · cases hkey
      rcases hnotes _ notice hpair with ⟨-, rfl⟩ | hpair
      · exact ⟨rfl, rfl⟩
      · exact absurd (h.notice _ notice hpair).2.2.2.2 hfr
    · rcases hnotes _ notice hpair with ⟨hrev, -⟩ | hpair
      · have hused := (h.member ref' peer' row hrow).2.2
        rw [hrev] at hused
        exact absurd hused hfr
      · exact h.paired ref' peer' row notice hrow hpair

theorem Sound.congr (hmemb : s'.member = s.member) (hnote : s'.notice = s.notice) : Sound ctx used s' where
  member := hmemb ▸ h.member
  notice := hnote ▸ h.notice
  paired := hmemb ▸ hnote ▸ h.paired

theorem Sound.confirm {id : String} (hrow : s.notice.get id = some grant)
    (hmemb : s'.member = s.member) (hnote : s'.notice = s.notice.put id { grant with acked := true }) :
    Sound ctx used s' := by
  have hnotes (key : String) (notice : Grant) (hstor : s'.notice.get key = some notice) :
      ∃ old, s.notice.get key = some old ∧ notice = { old with acked := notice.acked } := by
    rw [hnote, get_put] at hstor
    split_ifs at hstor with hkey
    · cases hstor
      exact ⟨grant, hkey ▸ hrow, rfl⟩
    · exact ⟨notice, hstor, rfl⟩
  constructor
  · exact hmemb ▸ h.member
  · intro key notice hstor
    obtain ⟨old, hold, hsame⟩ := hnotes key notice hstor
    rw [hsame]
    exact h.notice key old hold
  · intro ref peer row notice hmem hstor
    obtain ⟨old, hold, hsame⟩ := hnotes _ notice hstor
    rw [hmemb] at hmem
    rw [hsame]
    exact h.paired ref peer row old hmem hold

end

/-! ## The listing -/

def Noticed (ctx : Context D) (s : Store D) : Prop :=
  ∀ ref peer row, peer ≠ "" → peer ≠ ctx.node → s.member.get (ref, peer) = some row →
    row.state = .active → (s.notice.get row.revision).isSome

section Listing

variable {ctx : Context D} {used : List String} {s : Store D}

theorem mem_issuedGrants (h : Sound ctx used s) {peer : NodeId} :
    grant ∈ issuedGrants ctx s peer ↔ ∃ ref row, s.member.get (ref, peer) = some row ∧
      row.state = .active ∧ s.notice.get row.revision = some grant := by
  unfold issuedGrants sortedBy
  rw [mem_insertionSort, mem_filterMap]
  constructor
  · rintro ⟨row, hrow, hnote⟩
    simp only [membershipsOf, mem_filter, List.mem_map, Bool.and_eq_true, decide_eq_true_eq] at hrow
    obtain ⟨⟨⟨⟨ref, key⟩, _⟩, ⟨hmem, -⟩, rfl⟩, hpeer, hactv⟩ := hrow
    have hstor := mem_rows.mp hmem
    have hkey : key = peer := (h.member ref key _ hstor).1.symm.trans hpeer
    rw [hkey] at hstor
    exact ⟨ref, _, hstor, hactv, (filter_eq_some_iff.mp hnote).1⟩
  · rintro ⟨ref, row, hrow, hactv, hnote⟩
    obtain ⟨hpeer, hown, -⟩ := h.member ref peer row hrow
    obtain ⟨href, hrcp⟩ := h.paired ref peer row grant hrow hnote
    refine ⟨row, ?_, ?_⟩
    · simp only [membershipsOf, mem_filter, List.mem_map, Bool.and_eq_true, decide_eq_true_eq]
      exact ⟨⟨((ref, peer), row), ⟨mem_rows.mpr hrow, hown⟩, rfl⟩, hpeer, hactv⟩
    · unfold noticeOf
      rw [filter_eq_some_iff]
      refine ⟨hnote, ?_⟩
      simp [hrcp, href, hown]

theorem compatible_issuedGrants (h : Sound ctx used s) (hused : "" ∉ used) (peer : NodeId) :
    Compatible peer ctx.node (issuedGrants ctx s peer) where
  proper grant hgr := by
    obtain ⟨ref, row, hrow, -, hnote⟩ := (mem_issuedGrants h).mp hgr
    obtain ⟨hid, hrev, hown, hthr, hmem⟩ := h.notice _ grant hnote
    have hne : row.revision ≠ "" := fun heq => hused (heq ▸ hmem)
    exact ⟨hid ▸ hne, hrev ▸ hne, hthr, hown, (h.paired ref peer row grant hrow hnote).2⟩
  single a ha b hb heq := by
    obtain ⟨_, row, -, -, hnote⟩ := (mem_issuedGrants h).mp ha
    obtain ⟨_, row', -, -, hnote'⟩ := (mem_issuedGrants h).mp hb
    rw [← (h.notice _ a hnote).1, heq, (h.notice _ b hnote').1, hnote'] at hnote
    exact (Option.some.inj hnote).symm

theorem issuedPages_subset {fuel : Nat} {grants : List Grant}
    (hpages : issuedPages ctx s auth size fuel = .ok grants) : grants ⊆ issuedGrants ctx s auth.actor := by
  intro grant hgr
  refine mem_of_allPages ?_ hpages hgr
  intro cursor shown hsh item hitem
  simp only [issued, bind_eq_ok, checked_eq_ok] at hsh
  obtain ⟨_, -, hpage⟩ := hsh
  exact mem_of_page hpage hitem

/-- Two memberships of a peer are in two threads, so their notices have two ids. -/
theorem rising_issuedGrants (h : Sound ctx used s) (peer : NodeId) :
    Rising (fun grant => textUnits grant.id) (issuedGrants ctx s peer) := by
  have hnotice : ∀ row ∈ s.member.rows, row.2.peer = peer → ∀ grant ∈ noticeOf ctx s peer row.2,
      s.notice.get grant.id = some grant ∧ row.1 = (grant.threadRef, peer) := by
    rintro ⟨⟨ref, key⟩, row⟩ hrow hpeer grant hgr
    have hstored := mem_rows.mp hrow
    have hnote := (filter_eq_some_iff.mp hgr).1
    rw [(h.notice _ grant hnote).1, (h.paired ref key row grant hstored hnote).1, ← hpeer, (h.member ref key row hstored).1]
    exact ⟨hnote, rfl⟩
  have hmembers : ((s.member.rows.filter fun row => row.1.1.owner = ctx.node).map Prod.snd).Pairwise
      fun member member' => member.peer = peer → member'.peer = peer → ∀ grant, noticeOf ctx s peer member = some grant →
        ∀ grant', noticeOf ctx s peer member' = some grant' → textUnits grant.id ≠ textUnits grant'.id := by
    refine pairwise_map.mpr ((s.member.rows_pairwise.imp_of_mem ?_).filter _)
    intro row row' hrow hrow' hne hpeer hpeer' grant hgr grant' hgr' heq
    obtain ⟨hnote, hkey⟩ := hnotice row hrow hpeer grant hgr
    obtain ⟨hnote', hkey'⟩ := hnotice row' hrow' hpeer' grant' hgr'
    rw [textUnits_injective heq, hnote'] at hnote
    exact hne (by rw [hkey, hkey', Option.some.inj hnote])
  apply rising_insertionSort
  refine pairwise_filterMap.mpr ((hmembers.filter _).imp_of_mem ?_)
  intro member member' hmember hmember' hapart
  simp only [mem_filter, Bool.and_eq_true, decide_eq_true_eq] at hmember hmember'
  exact hapart hmember.2.1 hmember'.2.1

theorem issuedPages_complete (h : Sound ctx used s) (hac : auth.actor ≠ "") (hlow : 1 ≤ size) (hhigh : size ≤ 100) (fuel : Nat)
    (hfuel : (issuedGrants ctx s auth.actor).length ≤ (fuel + 1) * size.toNat) :
    ∃ grants, issuedPages ctx s auth size (fuel + 1) = .ok grants ∧ issuedGrants ctx s auth.actor ⊆ grants := by
  refine ⟨_, allPages_text (.issued auth.actor) (rising_issuedGrants h auth.actor) size ?_ ?_ unending fuel none hfuel,
    Subset.refl _⟩
  · intro cursor
    have hrange : ¬ (size < 1 ∨ 100 < size) := by omega
    simp [PageOptions.size, hrange]
  · intro cursor shown hpage
    simp [issued, failIf, hac, hpage, checked, bind, Except.bind]

theorem issuedComplete_iff (h : Sound ctx used s) : IssuedComplete ctx s ↔ Noticed ctx s := by
  constructor
  · intro hcompl ref peer row hpeer hoth hrow hactv
    obtain ⟨fuel, grants, hpages, grant, hgr, href⟩ :=
      hcompl { actor := peer } hpeer hoth ref row hrow hactv 1 le_rfl (by omega)
    obtain ⟨ref', row', hrow', -, hnote⟩ := (mem_issuedGrants h).mp (issuedPages_subset hpages hgr)
    have hsame : ref' = ref := (h.paired ref' peer row' grant hrow' hnote).1.symm.trans href
    subst hsame
    have heq : row' = row := Option.some.inj (hrow'.symm.trans hrow)
    rw [← heq, hnote]
    rfl
  · intro hnoticed auth hac hoth ref row hrow hactv size hlow hhigh
    obtain ⟨grant, hgr⟩ := isSome_iff_exists.mp (hnoticed ref auth.actor row hac hoth hrow hactv)
    -- A page for each notice is enough, whatever the size.
    have hfuel : (issuedGrants ctx s auth.actor).length ≤ ((issuedGrants ctx s auth.actor).length + 1) * size.toNat :=
      (Nat.le_succ _).trans (Nat.le_mul_of_pos_right _ (by omega))
    obtain ⟨grants, hpages, hall⟩ := issuedPages_complete h hac hlow hhigh _ hfuel
    have hlist := (mem_issuedGrants h).mpr ⟨ref, row, hrow, hactv, hgr⟩
    exact ⟨_, grants, hpages, grant, hall hlist, (h.paired ref auth.actor row grant hrow hgr).1⟩

end Listing

end Owner

/-! ## Whole runs -/

section Run

variable {D : Type} [DecidableEq D] {ctx : Context D} {call : Call}

def bumps (t : Transition (Store D) Call) : Bool :=
  match t.act with
  | .member auth ref peer patch _ _ =>
    ran t && auth.actor = ref.owner && peer ≠ "" && peer ≠ ref.owner &&
      patch.wants = some .active &&
      (t.before.member.get (ref, peer)).map Member.state = some .active
  | _ => false

variable {used : List String} {s s' : Store D}

theorem sound_step (h : Sound ctx used s) (hstep : step ctx s call = some s')
    (hfr : ∀ revision, call.revision = some revision → revision ∉ used) (hthr : "" ∉ call.threadIds) :
    Sound ctx (used ++ call.revision.toList) s' := by
  have hgrown := h.mono (subset_append_left used call.revision.toList)
  cases step_enrols hstep with
  | kept hmemb hnote => exact hgrown.congr hmemb hnote
  | confirmed hrow hmemb hnote => exact hgrown.confirm hrow hmemb hnote
  | @welcomed auth request input ref hown _ _ hmemb hnote hdrawn =>
    have hnew : (contactMember request.message.sender input.revision).revision ∉ used := hfr input.revision rfl
    have hnamed : ref.id ≠ "" := fun hemp => hthr (hemp ▸ hdrawn)
    exact h.enrol hnew hown hnamed rfl hmemb (.inr hnote)
  | @changed auth ref peer patch mutation input thread next slot _ hown _ _ _ _ hasks hmemb hnote
      hcompl =>
    obtain ⟨hpeer, hrev⟩ := membership_row hasks fun row hrow => (h.member ref peer row hrow).1
    have hsnd := h.enrol (hrev ▸ hfr input.revision rfl) hown hcompl hpeer hmemb (by
        rw [hnote]
        split_ifs
        · exact .inr rfl
        · exact .inl rfl)
    rw [hrev] at hsnd
    exact hsnd

omit [DecidableEq D] in
theorem revisions_append (past future : List (Transition (Store D) Call))
    (t : Transition (Store D) Call) : revisions (past ++ t :: future) =
      revisions past ++ (t.act.revision.toList ++ revisions future) := by
  unfold revisions
  rw [filterMap_append, filterMap_cons]
  cases t.act.revision with
  | none => rfl
  | some => rfl

omit [DecidableEq D] in
theorem HostIds.past {past future : List (Transition (Store D) Call)} (h : HostIds (past ++ future)) :
    HostIds past := by
  obtain ⟨hdist, hemp, hthr⟩ := h
  unfold revisions at hdist hemp
  rw [filterMap_append] at hdist hemp
  exact ⟨(nodup_append.mp hdist).1, fun hmem => hemp (mem_append_left _ hmem),
    fun t ht => hthr t (mem_append_left _ ht)⟩

omit [DecidableEq D] in
theorem HostIds.new {past future : List (Transition (Store D) Call)}
    {t : Transition (Store D) Call} (h : HostIds (past ++ t :: future)) :
    (∀ revision, t.act.revision = some revision → revision ∉ revisions past) ∧ "" ∉ t.act.threadIds := by
  obtain ⟨hdist, -, hthr⟩ := h
  rw [revisions_append, nodup_append] at hdist
  refine ⟨?_, hthr t (by simp)⟩
  intro revision hrev hused
  refine hdist.2.2 revision hused revision ?_ rfl
  simp [hrev]

theorem sound_of_run {h : List (Transition (Store D) Call)} (hrun : Run (step ctx) {} h s) (hids : HostIds h) :
    Sound ctx (revisions h) s := by
  revert hids
  refine hrun.induction_on (I := fun h s => HostIds h → Sound ctx (revisions h) s) ?_ ?_
  · intro _
    constructor
    · intro ref peer row hrow
      cases hrow
    · intro id notice hnote
      cases hnote
    · intro ref peer row notice hrow
      cases hrow
  · intro past s call s' _ ih hstep hids
    obtain ⟨hfr, hthr⟩ := hids.new
    have hsnd := sound_step (ih hids.past) hstep hfr hthr
    rw [revisions_append]
    simpa [revisions] using hsnd

omit [DecidableEq D] in
theorem ran_self (s : Store D) (call : Call) : ran ⟨s, call, s⟩ = false := by
  unfold ran
  cases call.slot with
  | none => rfl
  | some row =>
    dsimp only [any_some]
    cases s.idempotency.get row with
    | none => rfl
    | some => rfl

/-- A call that runs its work for a membership writes the row and, when the membership begins, the
notice. -/
theorem changed_of_ran {auth : Auth} {ref : ThreadRef} {peer : NodeId} {patch : MemberPatch}
    {mutation : Mutation} {input : MutateInput}
    (hstep : step ctx s (.member auth ref peer patch mutation input) = some s')
    (hran : ran ⟨s, .member auth ref peer patch mutation input, s'⟩ = true) : ref.owner = ctx.node ∧ ∃ thread next,
      membership (auth.actor = ref.owner) thread (s.member.get (ref, peer)) peer patch input = .ok next ∧
      s'.member = s.member.put (ref, peer) next ∧ s'.notice = if begins ref peer (s.member.get (ref, peer)) next then
        s.notice.put next.revision (grantNotice ref peer next.revision) else s.notice := by
  cases step_effect hstep with
  | kept =>
    rw [ran_self] at hran
    cases hran
  | worked digest named free works =>
    cases works with
    | member caller run =>
      obtain ⟨thread, next, _, _, hthr, hnext, rfl⟩ := memberWork_rows run
      exact ⟨(loadThread_owner hthr).1, thread, next, hnext, rfl, rfl⟩

/-- A step keeps a notice for every membership exactly when it does not set an active one again. -/
theorem noticed_step (h : Sound ctx used s) (hstep : step ctx s call = some s')
    (hfr : ∀ revision, call.revision = some revision → revision ∉ used) (hnoticed : Noticed ctx s) :
    Noticed ctx s' ↔ bumps ⟨s, call, s'⟩ = false := by
  constructor
  · intro hnote'
    rw [← Bool.not_eq_true]
    intro hbumps
    cases call with
    | member auth ref peer patch mutation input =>
      simp only [bumps, Bool.and_eq_true, decide_eq_true_eq] at hbumps
      obtain ⟨⟨⟨⟨⟨hran, hcal⟩, hpeer⟩, hoth⟩, hwants⟩, hcur⟩ := hbumps
      obtain ⟨howner, thread, next, hasks, hmemb, hnote⟩ := changed_of_ran hstep hran
      rw [hcal] at hasks
      obtain ⟨_, hrev, hst⟩ := ownerMembership_row (by simpa [membership] using hasks)
      have hactv : next.state = .active := Option.some.inj (hst.symm.trans hwants)
      have hsame : s'.notice = s.notice := by
        rw [hnote, if_neg]
        simp [begins, hcur]
      have hnode : peer ≠ ctx.node := howner ▸ hoth
      have hrow : s'.member.get (ref, peer) = some next := by rw [hmemb, get_put_self]
      obtain ⟨notice, hstor⟩ := isSome_iff_exists.mp (hnote' ref peer next hpeer hnode hrow hactv)
      rw [hsame] at hstor
      have hused := (h.notice _ notice hstor).2.2.2.2
      rw [hrev] at hused
      exact hfr input.revision rfl hused
    | _ => cases hbumps
  · intro hbumps ref' peer' row hpeer' hoth' hrow hactv
    have hkept (hgrows : ∀ id, (s.notice.get id).isSome → (s'.notice.get id).isSome)
        (hold : s.member.get (ref', peer') = some row) : (s'.notice.get row.revision).isSome :=
      hgrows _ (hnoticed ref' peer' row hpeer' hoth' hold hactv)
    have hput {id : String} {notice : Grant} (heq : s'.notice = s.notice.put id notice)
        (key : String) (hkey : (s.notice.get key).isSome) : (s'.notice.get key).isSome := by
      rw [heq, get_put]
      split_ifs
      · rfl
      · exact hkey
    cases step_enrols hstep with
    | kept hmemb hnote => exact hkept (hnote ▸ fun _ h => h) (hmemb ▸ hrow)
    | confirmed _ hmemb hnote => exact hkept (hput hnote) (hmemb ▸ hrow)
    | welcomed _ _ _ hmemb hnote =>
      rw [hmemb] at hrow
      rcases get_put_cases hrow with ⟨-, rfl⟩ | ⟨-, hold⟩
      · simp [hnote, contactMember]
      · exact hkept (hput hnote) hold
    | @changed auth ref peer patch mutation input thread next slot _ howner hnamed hfree hans _
        hasks hmemb hnote =>
      have hgrows (id : String) (hid : (s.notice.get id).isSome) : (s'.notice.get id).isSome := by
        split_ifs at hnote
        · exact hput hnote id hid
        · rwa [hnote]
      rw [hmemb] at hrow
      rcases get_put_cases hrow with ⟨hkey, rfl⟩ | ⟨-, hold⟩
      · cases hkey
        by_cases hbeg : begins ref' peer' (s.member.get (ref', peer')) row = true
        · simp [hnote, hbeg]
        · -- The membership was active before, so its owner has set it again.
          have hcur : (s.member.get (ref', peer')).map Member.state = some .active := by
            by_contra hstop
            exact hbeg (by simp [begins, hactv, hstop, howner, hoth'])
          obtain ⟨old, hold, -⟩ := map_eq_some_iff.mp hcur
          rw [hold] at hasks
          have hcal : auth.actor = ref'.owner := by
            by_contra hpeer
            rw [decide_eq_false hpeer] at hasks
            have hown : ownMembership thread (some old) peer' patch input = .ok row := hasks
            rw [ownMembership_stops hown] at hactv
            cases hactv
          rw [decide_eq_true hcal] at hasks
          obtain ⟨-, -, hwants⟩ := ownerMembership_row hasks
          rw [hactv] at hwants
          have hran := ran_of_row (t := ⟨s, _, s'⟩) hnamed hfree hans
          simp [bumps, hran, hcal, hpeer', hoth', howner, hwants, hcur] at hbumps
      · exact hkept hgrows hold

/-- A pass of `node` that asks the owner and hears what the owner's listing says. -/
structure AsksIssued (ctx : Context D) (s : Store D) (node : NodeId) (input : ResyncInput)
    (recipient : Recipient) : Prop where
  named : node ≠ ""
  owner : ctx.node ≠ ""
  other : node ≠ ctx.node
  trusted : ctx.node ∈ input.peers
  window : due input.now (recipient.mark.get ctx.node) = true
  asked : input.answers ctx.node = issuedAnswer ctx s node
  -- The listing fits into the pages a client is ready to fetch.
  bounded : (issuedGrants ctx s node).length ≤ maxCursorPages * 100
  -- No other owner says that it has replaced a thread of this one.
  others : ∀ peer, peer ≠ ctx.node → ∀ issued, input.answers peer = .ok issued → ∀ offer ∈ issued,
    ∀ old, offer.previous = some old → old.owner ≠ ctx.node
  -- What is still held is what was granted.
  agrees : ∀ grant ∈ issuedGrants ctx s node, Agrees node recipient.held grant

omit [DecidableEq D] in
theorem resyncGrants_holds (h : Sound ctx used s) (hused : "" ∉ used) {node : NodeId} {input : ResyncInput}
    {recipient : Recipient} (hrch : AsksIssued ctx s node input recipient) {grant : Grant}
    (hgr : grant ∈ issuedGrants ctx s node) : Recovered (resyncGrants node input recipient).held grant.threadRef := by
  have hac : ({ actor := node } : Auth).actor ≠ "" := hrch.named
  have hsize : (1 : Int) ≤ 100 := by decide
  obtain ⟨grants, hpages, hall⟩ := issuedPages_complete h hac hsize le_rfl 9999 hrch.bounded
  have hans : Answers node ctx.node grants input := by
    refine ⟨?_, hrch.others⟩
    rw [hrch.asked]
    unfold issuedAnswer
    rw [show maxCursorPages = 9999 + 1 from rfl, hpages]
    rfl
  have hasked : ctx.node ∈ input.peers.filter fun peer =>
      peer ≠ node && due input.now (recipient.mark.get peer) := by
    rw [mem_filter]
    refine ⟨hrch.trusted, ?_⟩
    simp [hrch.window, hrch.other.symm]
  obtain ⟨hagr, -, hhld⟩ := foldl_resyncPeer_holds hrch.owner
    (compatible_issuedGrants h hused node) (issuedPages_subset hpages) hans
    (input.peers.filter fun peer => peer ≠ node && due input.now (recipient.mark.get peer))
    hrch.agrees
  exact recovered_of_holds (hagr grant hgr) (hhld hasked grant (hall hgr))

/-- Over every run of an owner whose host hands out ids as it should: the listing of granted
memberships is complete in all states exactly when the owner never sets an active membership active
again, and from a complete listing a recipient recovers everything it is a member of. -/
theorem grants_resync_complete (ctx : Context D) {h : List (Transition (Store D) Call)} {s : Store D}
    (hrun : Run (step ctx) {} h s) (hids : HostIds h) :
    ((∀ t ∈ h, IssuedComplete ctx t.after) ↔ ∀ t ∈ h, bumps t = false) ∧
    ∀ t ∈ h, IssuedComplete ctx t.after → ∀ node input recipient,
      AsksIssued ctx t.after node input recipient → ∀ ref row,
      t.after.member.get (ref, node) = some row → row.state = .active →
      Recovered (resyncGrants node input recipient).held ref := by
  constructor
  · refine hrun.forall_after_iff_of (I := IssuedComplete ctx) ?_ ?_
    · intro auth _ _ ref row hrow
      cases hrow
    · intro past t future hh hpast hstep hcompl
      rw [hh] at hids
      obtain ⟨hfr, -⟩ := hids.new
      have hnow : HostIds (past ++ [t]) := HostIds.past (by simpa using hids)
      rw [issuedComplete_iff (sound_of_run (hpast.snoc hstep) hnow)]
      rw [issuedComplete_iff (sound_of_run hpast hids.past)] at hcompl
      exact noticed_step (sound_of_run hpast hids.past) hstep hfr hcompl
  · intro t ht hcompl node input recipient hrch ref row hrow hactv
    obtain ⟨past, future, rfl, hpast, hstep, -⟩ := hrun.of_mem ht
    have hnow : HostIds (past ++ [t]) := HostIds.past (by simpa using hids)
    have hsnd := sound_of_run (hpast.snoc hstep) hnow
    rw [issuedComplete_iff hsnd] at hcompl
    obtain ⟨grant, hgr⟩ := isSome_iff_exists.mp (hcompl ref node row hrch.named hrch.other hrow hactv)
    have hlist := (mem_issuedGrants hsnd).mpr ⟨ref, row, hrow, hactv, hgr⟩
    rw [← (hsnd.paired ref node row grant hrow hgr).1]
    exact resyncGrants_holds hsnd hnow.revision hrch hlist

end Run

namespace Scenario

/-- The owner lets `b` read and post in the thread of its first contact. -/
def widens : Call :=
  .member { actor := "n" } contactRef "b" { access := some [.known .read, .known .post] }
    ⟨"widen", "2030-01-01T00:00:00Z"⟩
    { windowStart := 0, windowEnd := 0, now := 0, revision := "rev2" }

/-- The ids of a history are as a host hands them out. -/
def distinctIds (h : List (Transition (Store Digested) Call)) : Bool :=
  (revisions h).Nodup && "" ∉ revisions h && h.all fun t => "" ∉ t.act.threadIds

theorem hostIds_of_distinct {h : List (Transition (Store Digested) Call)} (hd : distinctIds h = true) : HostIds h := by
  simp only [distinctIds, Bool.and_eq_true, decide_eq_true_eq, List.all_eq_true] at hd
  exact ⟨hd.1.1, hd.1.2, hd.2⟩

/-- A pass of `b`, which has nothing yet and asks `n`. -/
def asksOwner (s : Store Digested) : ResyncInput where
  now := 0
  peers := ["n"]
  answers peer := if peer = "n" then issuedAnswer context s "b" else .ok []
  readings _ := 0

def listed (s : Store Digested) (peer : NodeId) : Option (List Grant) :=
  match issued context s { actor := peer } {} with
  | .ok shown => some shown.items
  | .error _ => none

end Scenario

open Scenario in
/-- After its first contact `b` recovers the thread it opened. -/
theorem grants_resync_complete_contact : ∃ h s, Run (step context) {} h s ∧ HostIds h ∧
    (∀ t ∈ h, IssuedComplete context t.after) ∧
    ∃ t ∈ h, Recovered (resyncGrants "b" (asksOwner t.after) {}).held contactRef := by
  obtain ⟨h, s, hrun, hids, hbumps, t, ht, hlen, row, hrow, hactv⟩ := exists_run (step context) {}
    [sends "k" (message "m" "hello")]
    (fun h _ => distinctIds h = true ∧ (∀ t ∈ h, bumps t = false) ∧
      ∃ t ∈ h, (issuedGrants context t.after "b").length ≤ 1 ∧
        ∃ row ∈ t.after.member.get (contactRef, "b"), row.state = .active) (by decide)
  have hhost := hostIds_of_distinct hids
  obtain ⟨hiff, hrecover⟩ := grants_resync_complete context hrun hhost
  have hcompl := hiff.mpr hbumps
  refine ⟨h, s, hrun, hhost, hcompl, t, ht, ?_⟩
  refine hrecover t ht (hcompl t ht) "b" (asksOwner t.after) {} ?_ contactRef row hrow hactv
  refine ⟨by decide, by decide, by decide, mem_singleton_self _, rfl, rfl, ?_, ?_, ?_⟩
  · exact hlen.trans (by decide)
  · intro peer hpeer issued hans offer hoffer
    have hnothing : (asksOwner t.after).answers peer = .ok [] := if_neg hpeer
    rw [hnothing] at hans
    cases hans
    cases hoffer
  · intro grant _ stored hstor
    cases hstor

open Scenario in
/-- The owner widens the access of `b`, which stays a member: `issued` lists nothing to it any more, and
`b` does not recover the thread. -/
theorem issued_misses_widened : ∃ h s, Run (step context) {} h s ∧ HostIds h ∧
    h.map (fun t => listed t.after "b") = [some [grantNotice contactRef "b" "rev"], some []] ∧
    (s.member.get (contactRef, "b")).map Member.state = some .active ∧
    (resyncGrants "b" (asksOwner s) {}).held.known.get contactRef = none := by
  obtain ⟨h, s, hrun, hp⟩ := exists_run (step context) {} [sends "k" (message "m" "hello"), widens]
    (fun h s => distinctIds h = true ∧
      h.map (fun t => listed t.after "b") = [some [grantNotice contactRef "b" "rev"], some []] ∧
      (s.member.get (contactRef, "b")).map Member.state = some .active ∧
      (resyncGrants "b" (asksOwner s) {}).held.known.get contactRef = none) (by decide)
  exact ⟨h, s, hrun, hostIds_of_distinct hp.1, hp.2⟩

end Onlyne.Messages
