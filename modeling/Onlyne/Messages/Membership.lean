import Onlyne.Messages.Rights

/-!
# Messages: the authority over memberships

A membership row is written by the `member` call of the owner, by the `member` call of the peer itself
(to join or to withdraw), and by the admission of a first contact.  Only the owner can widen a row:
every other call leaves it as it is or narrows it, so over a whole run the rights of a peer stay within
what the owner set last.
-/

namespace Onlyne.Messages

open Foundation Table

/-! ## The order on memberships -/

/-- `row` allows no more than `bound`: no access it lacks, and the same part of the history. -/
structure Member.Within (row bound : Member) : Prop where
  access : row.access ⊆ bound.access
  readScope : row.readScope = bound.readScope
  -- A row that was stopped or not yet granted does not become active.
  active : row.state = .active → bound.state = .active

theorem Member.Within.refl (row : Member) : row.Within row :=
  ⟨List.Subset.refl _, rfl, id⟩

theorem Member.Within.trans {first second third : Member} (h : first.Within second)
    (h' : second.Within third) : first.Within third :=
  ⟨List.Subset.trans h.access h'.access, h.readScope.trans h'.readScope, fun hactv => h'.active (h.active hactv)⟩

section Authority

variable {D : Type} {patch : MemberPatch} {input : MutateInput} {thread : Thread} {peer : NodeId}
  {next : Member}

section

variable (t : Transition (Store D) Call) (ref : ThreadRef) (peer : NodeId)

def ownerSets : Bool :=
  match t.act with
  | .member auth ref' peer' _ _ _ => ref' = ref && peer' = peer && auth.actor = ref.owner && ran t
  | _ => false

def joins : Bool :=
  match t.act with
  | .member auth ref' peer' _ _ input =>
    ref' = ref && peer' = peer && auth.actor = peer &&
      (input.mayAdmit matches some (.ok true))
  | _ => false

def opens : Bool :=
  match t.act with
  | .admitRequest _ request _ =>
    request.message.sender = peer && (t.before.thread.get ref).isNone &&
      (t.after.thread.get ref).isSome
  | _ => false

end

/-! ## What a peer can ask for itself -/

/-- A peer without a row joins as a member only when the policy of the host admits it. -/
theorem ownMembership_join (h : ownMembership thread none peer patch input = .ok next) (hactv : next.state = .active) :
    thread.state ≠ .closed ∧ input.mayAdmit = some (.ok true) := by
  simp only [ownMembership, bind_eq_ok, failIf_eq_ok, decide_eq_false_iff_not] at h
  obtain ⟨-, -, -, hopen, h⟩ := h
  refine ⟨hopen, ?_⟩
  cases hpol : input.mayAdmit with
  | none =>
    rw [hpol] at h
    cases h
    cases hactv
  | some policy =>
    rw [hpol] at h
    obtain ⟨admitted, hadm, h⟩ := bind_eq_ok.mp h
    cases h
    cases policy with
    | error => cases hadm
    | ok =>
      cases hadm
      cases admitted with
      | false => cases hactv
      | true => rfl

theorem ownMembership_withdraw {row : Member}
    (h : ownMembership thread (some row) peer patch input = .ok next) : next.Within row := by
  simp only [ownMembership] at h
  split at h
  · split at h
    · cases h
    · cases h
      refine ⟨List.nil_subset _, rfl, ?_⟩
      intro hactv
      cases hactv
  · cases h

end Authority

section Run

variable {D : Type} [DecidableEq D]

/-! ## One call -/

variable {ctx : Context D} {peer : NodeId} {ref : ThreadRef} {t : Transition (Store D) Call}

theorem member_thread {h : List (Transition (Store D) Call)} {s : Store D} (hrun : Run (step ctx) {} h s) :
    ∀ ref peer row, s.member.get (ref, peer) = some row → s.thread.get ref ≠ none := by
  refine hrun.invariant (I := fun s => ∀ ref peer row, s.member.get (ref, peer) = some row →
    s.thread.get ref ≠ none) ?_ ?_
  · intro ref peer row hrow
    cases hrow
  · intro s call s' ih hstep ref peer row hrow
    have hkept (hold : s.member.get (ref, peer) = some row) : s'.thread.get ref ≠ none :=
      step_thread hstep (ih ref peer row hold)
    cases step_enrols hstep with
    | kept hmemb | confirmed _ hmemb =>
      rw [hmemb] at hrow
      exact hkept hrow
    | welcomed hown hfree hopen hmemb =>
      rw [hmemb] at hrow
      rcases get_put_cases hrow with ⟨hkey, -⟩ | ⟨-, hold⟩
      · cases hkey
        exact Option.isSome_iff_ne_none.mp hopen
      · exact hkept hold
    | changed _ _ _ _ _ hthr _ hmemb =>
      rw [hmemb] at hrow
      rcases get_put_cases hrow with ⟨hkey, -⟩ | ⟨-, hold⟩
      · cases hkey
        exact step_thread hstep (by rw [hthr]; exact Option.some_ne_none _)
      · exact hkept hold

section

variable (hstep : step ctx t.before t.act = some t.after) {row : Member}
include hstep

theorem within_step (hthr : t.before.thread.get ref ≠ none) (hsets : ownerSets t ref peer = false)
    (hrow : t.before.member.get (ref, peer) = some row) :
    ∃ row', t.after.member.get (ref, peer) = some row' ∧ row'.Within row := by
  obtain ⟨s, call, s'⟩ := t
  have hoth {next : Member} {key : ThreadRef × NodeId} (hmemb : s'.member = s.member.put key next)
      (hne : (ref, peer) ≠ key) : ∃ row', s'.member.get (ref, peer) = some row' ∧ row'.Within row := by
    rw [hmemb, get_put_ne _ _ hne]
    exact ⟨row, hrow, .refl row⟩
  cases step_enrols hstep with
  | kept hmemb | confirmed _ hmemb =>
    rw [hmemb]
    exact ⟨row, hrow, .refl row⟩
  | welcomed _ hfree _ hmemb =>
    -- A first contact opens a new thread, and memberships belong to threads that exist.
    refine hoth hmemb ?_
    intro hkey
    cases hkey
    exact hthr hfree
  | @changed auth ref' peer' patch mutation input thread next slot caller _ named free answered _ asks
      hmemb =>
    by_cases hkey : (ref, peer) = (ref', peer')
    · cases hkey
      have hown : auth.actor ≠ ref.owner := by
        intro howner
        have hran := ran_of_row (t := ⟨s, _, s'⟩) named free answered
        simp [ownerSets, howner, hran] at hsets
      rw [hrow, decide_eq_false hown] at asks
      change ownMembership thread (some row) peer patch input = .ok next at asks
      rw [hmemb, get_put_self]
      exact ⟨next, rfl, ownMembership_withdraw asks⟩
    · exact hoth hmemb hkey

theorem created_active (hnone : t.before.member.get (ref, peer) = none)
    (hrow : t.after.member.get (ref, peer) = some row) (hactv : row.state = .active) :
    ownerSets t ref peer = true ∨ joins t ref peer = true ∧ (∃ thread, t.before.thread.get ref = some thread ∧
        thread.state ≠ .closed) ∨ opens t ref peer = true := by
  obtain ⟨s, call, s'⟩ := t
  have hold {key : ThreadRef × NodeId} {next : Member} (hmemb : s'.member = s.member.put key next) :
      (ref, peer) = key ∧ row = next := by
    rw [hmemb] at hrow
    rcases get_put_cases hrow with hnew | ⟨-, hrow⟩
    · exact hnew
    · cases hnone.symm.trans hrow
  cases step_enrols hstep with
  | kept hmemb | confirmed _ hmemb =>
    rw [hmemb, hnone] at hrow
    cases hrow
  | welcomed _ hfree hopened hmemb =>
    obtain ⟨hkey, -⟩ := hold hmemb
    cases hkey
    exact .inr (.inr (by simp [opens, hfree, hopened]))
  | @changed auth ref' peer' patch mutation input thread next slot caller _ named free answered
      hthr asks hmemb =>
    obtain ⟨hkey, rfl⟩ := hold hmemb
    cases hkey
    by_cases hown : auth.actor = ref.owner
    · have hran := ran_of_row (t := ⟨s, _, s'⟩) named free answered
      exact .inl (by simp [ownerSets, hown, hran])
    · rw [hnone, decide_eq_false hown] at asks
      obtain ⟨hopen, hadm⟩ := ownMembership_join asks hactv
      have hpeer := caller.resolve_left hown
      exact .inr (.inl ⟨by simp [joins, hpeer, hadm], thread, hthr, hopen⟩)

end

/-! ## Whole runs -/

theorem within_run {h₁ h₂ : List (Transition (Store D) Call)} {m s : Store D} {bound : Member}
    (hbef : Run (step ctx) {} h₁ m) (hrun : Run (step ctx) m h₂ s)
    (hsets : ∀ t ∈ h₂, ownerSets t ref peer = false) (hbd : m.member.get (ref, peer) = some bound) :
    ∃ row, s.member.get (ref, peer) = some row ∧ row.Within bound := by
  induction hrun with
  | nil => exact ⟨bound, hbd, .refl bound⟩
  | @snoc h s s' call hprev hstep ih =>
    obtain ⟨row, hrow, hin⟩ := ih fun t ht => hsets t (List.mem_append_left _ ht)
    have hthr := member_thread (hbef.append hprev) ref peer row hrow
    obtain ⟨row', hrow', hin'⟩ := within_step (t := ⟨s, call, s'⟩) hstep hthr (hsets _ (by simp)) hrow
    exact ⟨row', hrow', hin'.trans hin⟩

/-- The authority over memberships.  In every run a row that is not active becomes active only when the
owner sets it; after any call the rights of a peer stay within what they were until the owner sets them
again; and a row begins active without the owner only for a newcomer to a thread that admits newcomers
and for the sender of a first contact. -/
theorem membership_authority {ctx : Context D} {h : List (Transition (Store D) Call)} {s : Store D}
    (hrun : Run (step ctx) {} h s) (ref : ThreadRef) (peer : NodeId) :
    (∀ t ∈ h, ∀ row row', t.before.member.get (ref, peer) = some row →
      t.after.member.get (ref, peer) = some row' → row.state ≠ .active → row'.state = .active →
      ownerSets t ref peer = true) ∧ (∀ h₁ t h₂, h = h₁ ++ t :: h₂ → (∀ t' ∈ h₂, ownerSets t' ref peer = false) →
      ∀ bound, t.after.member.get (ref, peer) = some bound →
      ∃ row, s.member.get (ref, peer) = some row ∧ row.access ⊆ bound.access ∧
        row.readScope = bound.readScope) ∧ ∀ t ∈ h, ∀ row, t.before.member.get (ref, peer) = none →
      t.after.member.get (ref, peer) = some row → row.state = .active → ownerSets t ref peer = true ∨
        joins t ref peer = true ∧ (∃ thread, t.before.thread.get ref = some thread ∧ thread.state ≠ .closed) ∨
        opens t ref peer = true := by
  refine ⟨?_, ?_, ?_⟩
  · intro t ht row row' hrow hrow' hstop hactv
    obtain ⟨h₁, h₂, rfl, hbef, hstep, -⟩ := hrun.of_mem ht
    by_contra hsets
    obtain ⟨next, hnext, hin⟩ := within_step hstep (member_thread hbef ref peer row hrow)
      (Bool.eq_false_iff.mpr hsets) hrow
    cases hrow'.symm.trans hnext
    exact hstop (hin.active hactv)
  · rintro h₁ t h₂ rfl hsets bound hbd
    obtain ⟨hbef, hstep, hrest⟩ := hrun.split_at
    obtain ⟨row, hrow, hin⟩ := within_run (hbef.snoc hstep) hrest hsets hbd
    exact ⟨row, hrow, hin.access, hin.readScope⟩
  · intro t ht row hnone hrow hactv
    exact created_active (hrun.step_of_mem ht) hnone hrow hactv

end Run

namespace Scenario

/-- A caller asks for a membership of `b` in the thread of its first contact. -/
def asksMember (actor key : String) (patch : MemberPatch) : Call :=
  .member { actor := actor } contactRef "b" patch ⟨key, "2030-01-01T00:00:00Z"⟩
    { windowStart := 0, windowEnd := 0, now := 0, mayAdmit := some (.ok true) }

/-- `b` opens a thread, its owner revokes it, and `b` asks to join again. -/
def revokedContact : List Call :=
  [sends "k" (message "m" "hello"),
   asksMember "n" "revoke" { state := some (.known .revoked) },
   asksMember "b" "join" { state := some (.known .active) }]

end Scenario

open Scenario in
/-- What `b` is left with stays within what the owner set, whatever the host's policy admits. -/
theorem membership_authority_revoked : ∃ h s, Run (step context) {} h s ∧
    h.map (ownerSets · contactRef "b") = [false, true, false] ∧ h.map (opens · contactRef "b") = [true, false, false] ∧
    (∀ t ∈ h, ∀ row row', t.before.member.get (contactRef, "b") = some row →
      t.after.member.get (contactRef, "b") = some row' → row.state ≠ .active →
      row'.state = .active → ownerSets t contactRef "b" = true) := by
  obtain ⟨h, s, hrun, hp⟩ := exists_run (step context) {} revokedContact
    (fun h _ => h.map (ownerSets · contactRef "b") = [false, true, false] ∧
      h.map (opens · contactRef "b") = [true, false, false]) (by decide)
  exact ⟨h, s, hrun, hp.1, hp.2, (membership_authority hrun contactRef "b").1⟩

end Onlyne.Messages
