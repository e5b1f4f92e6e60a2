import Onlyne.Messages.Reads

/-!
# Messages: the recipient of grants

`acceptGrant` of `threads.ts` and the resynchronisation pass of `client.ts`.  A recipient that has lost
its own rows asks the owners it trusts for the notices they still hold for it, and accepts again what it
misses, each notice in a transaction of its own.

`foldl_resyncPeer_holds` says what a pass leaves: the notices of an owner that answered are held, whatever
the other owners answered.
-/

namespace Onlyne.Messages

open Foundation Table List

/-! ## The recipient of grants -/

/-- A notice as its owner sends it.  It names the thread it stands for when its owner has changed its
identity. -/
structure Offer where
  grant : Grant
  previous : Option ThreadRef := none

section

variable (node owner : NodeId) (held : Holdings) (grant : Grant)

def Grant.offer : Offer where
  grant := grant

/-- Drop what is held of a thread that another one replaces. -/
def forget (ref : ThreadRef) : Option ThreadRef → Holdings
  | none => held
  | some previous =>
    if previous = ref then held
    else
      { known := held.known.delete previous
        grant := held.grant.deleteWhere fun _ grant => grant.threadRef = previous }

def requirePrevious : Option ThreadRef → Except Halt Unit
  | none => .ok ()
  | some previous => requireThreadRef previous

def acceptGrant (auth : Auth) (offer : Offer) : Except Halt (Grant × Holdings) := do
  let grant := offer.grant
  failIf (auth.actor = "") .unauthenticated "Authentication is required."
  failIf (grant.id = "" || grant.revision = "") .invalidRequest
    "Expected a grant notice with an id and a revision."
  requireThreadRef grant.threadRef
  failIf (grant.threadRef.owner ≠ auth.actor) .forbidden
    "A grant notice must come from the thread owner it names."
  failIf (grant.recipient ≠ node) .forbidden "The grant notice is addressed to another node."
  requirePrevious offer.previous
  let ref := grant.threadRef
  let stored := held.grant.get (ref.owner, grant.id)
  failIf (stored.any fun row => row.recipient ≠ node || row.revision ≠ grant.revision ||
    row.threadRef.id ≠ ref.id) .idConflict "The grant id is bound to another notice."
  let known : Known := { owner := ref.owner, threadRef := ref, revision := grant.revision }
  let moved := forget { held with known := held.known.put ref known } ref offer.previous
  match stored with
  | some row => .ok (row, moved)
  | none =>
    let next : Grant := { id := grant.id, recipient := node, threadRef := ref
                          revision := grant.revision, acked := grant.acked }
    .ok (next, { moved with grant := moved.grant.put (ref.owner, grant.id) next })

/-! ## Resynchronisation -/

/-- `MAX_CURSOR_PAGES`. -/
def maxCursorPages : Nat := 10000

/-- `GRANT_RESYNC_MS`. -/
def grantResyncMs : Int := 300000

/-- The rows of a recipient: its grants, and when an owner answered last. -/
structure Recipient where
  held : Holdings := {}
  mark : Table NodeId Int := ∅

def lost : Bool :=
  (held.known.get grant.threadRef).isNone ||
    (held.grant.get (grant.threadRef.owner, grant.id)).isNone

def offered (issued : List Offer) : List Offer :=
  issued.filter fun offer => offer.grant.threadRef.owner = owner && offer.grant.recipient = node

/-- Accept the offers that are to be repaired, each in a transaction of its own, until one is
refused. -/
def restore (node owner : NodeId) (repair : List String) :
    List Offer → Holdings → Holdings × Except Halt Unit
  | [], held => (held, .ok ())
  | offer :: rest, held =>
    if offer.grant.id ∈ repair then
      match acceptGrant node held { actor := owner } offer with
      | .ok (_, held') => restore node owner repair rest held'
      | .error halt => (held, .error halt)
    else restore node owner repair rest held

def repairFrom : Except Halt (List Offer) → Holdings × Except Halt Unit
  | .error halt => (held, .error halt)
  | .ok issued =>
    let offers := offered node owner issued
    let repair := (offers.filter fun offer => lost held offer.grant).map fun offer => offer.grant.id
    restore node owner repair offers held

def isNotFound : Halt → Bool
  | .threw (.onlyne failure) => failure.code = .notFound
  | _ => false

def resyncPeer (recipient : Recipient) (peer : NodeId)
    (answer : Except Halt (List Offer)) (reading : Int) : Recipient :=
  let (held, outcome) := repairFrom node peer recipient.held answer
  let answered := match outcome with
    | .ok () => true
    | .error halt => isNotFound halt
  { held := held, mark := if answered then recipient.mark.put peer reading else recipient.mark }

/-- What a pass is given from outside: its reading, the trusted peers, and for each of them its answer
and the reading when it came. -/
structure ResyncInput where
  now : Int
  peers : List NodeId
  answers : NodeId → Except Halt (List Offer)
  readings : NodeId → Int

/-- An owner is asked when the window since its last answer is over. -/
def due (now : Int) : Option Int → Bool
  | none => true
  | some last => grantResyncMs ≤ now - last

def resyncGrants (input : ResyncInput) (recipient : Recipient) : Recipient :=
  (input.peers.filter fun peer => peer ≠ node && due input.now (recipient.mark.get peer)).foldl
    (fun recipient peer => resyncPeer node recipient peer (input.answers peer) (input.readings peer))
    recipient

def unending : Halt := .threw (.onlyne (onlyneError .cursorExpired "The list did not terminate."))

/-! ## Accepting a grant -/

def Recovered (ref : ThreadRef) : Prop :=
  (held.known.get ref).isSome ∧
    ∃ id grant, held.grant.get (ref.owner, id) = some grant ∧ grant.threadRef = ref

def Agrees : Prop :=
  ∀ row, held.grant.get (grant.threadRef.owner, grant.id) = some row →
    row.recipient = node ∧ row.revision = grant.revision ∧ row.threadRef = grant.threadRef

def Holds : Prop :=
  (held.known.get grant.threadRef).isSome ∧
    (held.grant.get (grant.threadRef.owner, grant.id)).isSome

end

/-- A notice of an owner for the node that the node accepts. -/
structure Proper (node owner : NodeId) (grant : Grant) : Prop where
  id : grant.id ≠ ""
  revision : grant.revision ≠ ""
  thread : grant.threadRef.id ≠ ""
  owner : grant.threadRef.owner = owner
  recipient : grant.recipient = node

section Accept

variable {node owner : NodeId} {held : Holdings}

variable {notices grants : List Grant} {grant : Grant}

theorem holds_of_not_lost (h : lost held grant = false) : Holds held grant := by
  unfold lost at h
  rw [Bool.or_eq_false_iff, Option.isNone_eq_false_iff, Option.isNone_eq_false_iff] at h
  exact h

theorem acceptGrant_proper (howner : owner ≠ "") (hproper : Proper node owner grant) (hagr : Agrees node held grant) :
    ∃ kept known, acceptGrant node held { actor := owner } grant.offer = .ok (kept,
      { known := held.known.put grant.threadRef known
        grant := if (held.grant.get (owner, grant.id)).isSome then held.grant
          else held.grant.put (owner, grant.id) grant }) := by
  obtain ⟨hid, hrev, hthr, rfl, rfl⟩ := hproper
  cases hrow : held.grant.get (grant.threadRef.owner, grant.id) with
  | none =>
    refine ⟨grant, ⟨grant.threadRef.owner, grant.threadRef, grant.revision⟩, ?_⟩
    simp [acceptGrant, Grant.offer, requirePrevious, requireThreadRef, failIf, forget, howner, hid, hrev,
      hthr, hrow, bind, Except.bind]
  | some row =>
    obtain ⟨hrcp, hsame, href⟩ := hagr row hrow
    refine ⟨row, ⟨grant.threadRef.owner, grant.threadRef, grant.revision⟩, ?_⟩
    simp [acceptGrant, Grant.offer, requirePrevious, requireThreadRef, failIf, forget, howner, hid, hrev,
      hthr, hrow, hrcp, hsame, href, bind, Except.bind]

/-- The notices of one owner that a node can hold side by side. -/
structure Compatible (node owner : NodeId) (notices : List Grant) : Prop where
  proper : ∀ notice ∈ notices, Proper node owner notice
  single : ∀ a ∈ notices, ∀ b ∈ notices, a.id = b.id → a = b

section

variable (howner : owner ≠ "") (hnotes : Compatible node owner notices)
include howner hnotes

/-- Accepting one of the notices leaves what is held in agreement with all of them, and drops
nothing. -/
theorem acceptGrant_compatible (hagr : ∀ notice ∈ notices, Agrees node held notice) (hgr : grant ∈ notices) :
    ∃ kept held', acceptGrant node held { actor := owner } grant.offer = .ok (kept, held') ∧
      (∀ notice ∈ notices, Agrees node held' notice) ∧
      (∀ other, Holds held other → Holds held' other) ∧ Holds held' grant := by
  have hproper := hnotes.proper grant hgr
  obtain ⟨kept, known, hacc⟩ := acceptGrant_proper howner hproper (hagr grant hgr)
  refine ⟨kept, _, hacc, ?_, ?_, ?_⟩
  · intro notice hnote row hrow
    split_ifs at hrow with hstor
    · exact hagr notice hnote row hrow
    · rw [get_put] at hrow
      split_ifs at hrow with hkey
      · have hsame : notice = grant := hnotes.single notice hnote grant hgr (congrArg Prod.snd hkey)
        cases hrow
        rw [hsame]
        exact ⟨hproper.recipient, rfl, rfl⟩
      · exact hagr notice hnote row hrow
  · rintro other ⟨hkn, hstor⟩
    constructor
    · rw [get_put]
      split_ifs
      · rfl
      · exact hkn
    · split_ifs
      · exact hstor
      · rw [get_put]
        split_ifs
        · rfl
        · exact hstor
  · unfold Holds
    rw [hproper.owner]
    refine ⟨by simp, ?_⟩
    split_ifs with hstor
    · exact hstor
    · simp

theorem restore_compatible (repair : List String) (hsub : grants ⊆ notices)
    (hagr : ∀ notice ∈ notices, Agrees node held notice) :
    ∃ held', restore node owner repair (grants.map Grant.offer) held = (held', .ok ()) ∧
      (∀ notice ∈ notices, Agrees node held' notice) ∧ (∀ other, Holds held other → Holds held' other) ∧
      ∀ grant ∈ grants, grant.id ∈ repair → Holds held' grant := by
  induction grants generalizing held with
  | nil => exact ⟨held, rfl, hagr, fun _ h => h, by simp⟩
  | cons grant rest ih =>
    have hgr : grant ∈ notices := hsub mem_cons_self
    have hrest : rest ⊆ notices := fun _ h => hsub (mem_cons_of_mem _ h)
    rw [map_cons, restore]
    split_ifs with hrep
    · obtain ⟨kept, held₁, hacc, hagr₁, hkeep₁, hhld⟩ := acceptGrant_compatible howner hnotes hagr hgr
      obtain ⟨held', hrestore, hagr', hkeep', hall⟩ := ih hrest hagr₁
      rw [hacc]
      refine ⟨held', hrestore, hagr', fun other h => hkeep' other (hkeep₁ other h), ?_⟩
      rw [forall_mem_cons]
      exact ⟨fun _ => hkeep' grant hhld, hall⟩
    · obtain ⟨held', hrestore, hagr', hkeep', hall⟩ := ih hrest hagr
      refine ⟨held', hrestore, hagr', hkeep', ?_⟩
      rw [forall_mem_cons]
      exact ⟨fun h => absurd h hrep, hall⟩

theorem repairFrom_compatible (hsub : grants ⊆ notices) (hagr : ∀ notice ∈ notices, Agrees node held notice) :
    ∃ held', repairFrom node owner held (.ok (grants.map Grant.offer)) = (held', .ok ()) ∧
      (∀ notice ∈ notices, Agrees node held' notice) ∧
      (∀ other, Holds held other → Holds held' other) ∧ ∀ grant ∈ grants, Holds held' grant := by
  have hoffered : offered node owner (grants.map Grant.offer) = grants.map Grant.offer := by
    unfold offered
    rw [filter_eq_self]
    intro offer hoffer
    obtain ⟨grant, hgr, rfl⟩ := mem_map.mp hoffer
    have hproper := hnotes.proper grant (hsub hgr)
    simp [Grant.offer, hproper.owner, hproper.recipient]
  unfold repairFrom
  dsimp only
  rw [hoffered]
  obtain ⟨held', hrest, hagr', hkeep, hall⟩ := restore_compatible howner hnotes _ hsub hagr
  refine ⟨held', hrest, hagr', hkeep, ?_⟩
  intro grant hgr
  cases hlost : lost held grant with
  | false => exact hkeep grant (holds_of_not_lost hlost)
  | true =>
    apply hall grant hgr
    rw [mem_map]
    refine ⟨grant.offer, mem_filter.mpr ⟨mem_map_of_mem hgr, hlost⟩, rfl⟩

end

end Accept

/-! ## The other owners -/

structure Undisturbed (owner : NodeId) (held held' : Holdings) : Prop where
  known : ∀ ref, ref.owner = owner → held'.known.get ref = held.known.get ref
  grant : ∀ id, (∀ row, held.grant.get (owner, id) = some row → row.threadRef.owner = owner) →
    held'.grant.get (owner, id) = held.grant.get (owner, id)

section Others

variable {node owner peer : NodeId} {held held' : Holdings} {grant : Grant}

theorem Undisturbed.refl (owner : NodeId) (held : Holdings) : Undisturbed owner held held :=
  ⟨fun _ _ => rfl, fun _ _ => rfl⟩

section

variable (h : Undisturbed owner held held')
include h

theorem Undisturbed.trans {held'' : Holdings} (h' : Undisturbed owner held' held'') : Undisturbed owner held held'' where
  known ref href := (h'.known ref href).trans (h.known ref href)
  grant id hrow := by
    have hsame := h.grant id hrow
    exact (h'.grant id (hsame ▸ hrow)).trans hsame

theorem Undisturbed.agrees (howner : grant.threadRef.owner = owner) (hagr : Agrees node held grant) :
    Agrees node held' grant := by
  intro row hrow
  rw [howner, h.grant] at hrow
  · rw [← howner] at hrow
    exact hagr row hrow
  · intro stored hstor
    rw [← howner] at hstor
    rw [(hagr stored hstor).2.2, howner]

theorem Undisturbed.holds (howner : grant.threadRef.owner = owner) (hagr : Agrees node held grant)
    (hhld : Holds held grant) : Holds held' grant := by
  unfold Holds at hhld ⊢
  rw [h.known _ howner, howner, h.grant]
  · rwa [howner] at hhld
  · intro stored hstor
    rw [← howner] at hstor
    rw [(hagr stored hstor).2.2, howner]

end

theorem forget_undisturbed {ref : ThreadRef} {previous : Option ThreadRef}
    (h : ∀ old, previous = some old → old.owner ≠ owner) : Undisturbed owner held (forget held ref previous) := by
  cases previous with
  | none => exact .refl owner held
  | some old =>
    have hoth := h old rfl
    unfold forget
    dsimp only
    split_ifs
    · exact .refl owner held
    · constructor
      · intro ref' hown
        rw [get_delete, if_neg]
        rintro rfl
        exact hoth hown
      · intro id hrow
        rw [get_deleteWhere]
        cases hstor : held.grant.get (owner, id) with
        | none => rfl
        | some row =>
          have hne : row.threadRef ≠ old := by
            rintro rfl
            exact hoth (hrow row hstor)
          simp [hne]

theorem acceptGrant_undisturbed {auth : Auth} {offer : Offer} {kept : Grant}
    (h : acceptGrant node held auth offer = .ok (kept, held')) (hac : auth.actor ≠ owner)
    (hprev : ∀ old, offer.previous = some old → old.owner ≠ owner) : Undisturbed owner held held' := by
  simp only [acceptGrant, bind_eq_ok, failIf_eq_ok, decide_eq_false_iff_not, not_not] at h
  obtain ⟨_, -, _, -, _, -, _, hown, _, -, _, -, _, -, h⟩ := h
  have hlearned (known : Known) : Undisturbed owner held
      { held with known := held.known.put offer.grant.threadRef known } := by
    refine ⟨?_, fun _ _ => rfl⟩
    intro ref href
    rw [get_put, if_neg]
    rintro rfl
    exact hac (hown.symm.trans href)
  have hmv (known : Known) : Undisturbed owner held
      (forget { held with known := held.known.put offer.grant.threadRef known } offer.grant.threadRef
        offer.previous) := (hlearned known).trans (forget_undisturbed hprev)
  split at h
  · cases h
    exact hmv _
  · cases h
    refine (hmv _).trans ⟨fun _ _ => rfl, ?_⟩
    intro id _
    rw [get_put, if_neg]
    intro hkey
    exact hac (hown.symm.trans (congrArg Prod.fst hkey).symm)

theorem restore_undisturbed (hpeer : peer ≠ owner) (repair : List String)
    {offers : List Offer} (hprev : ∀ offer ∈ offers, ∀ old, offer.previous = some old → old.owner ≠ owner)
    (held : Holdings) : Undisturbed owner held (restore node peer repair offers held).1 := by
  induction offers generalizing held with
  | nil => exact .refl owner held
  | cons offer rest ih =>
    rw [forall_mem_cons] at hprev
    rw [restore]
    split_ifs
    · split
      · next kept held' hacc =>
        exact (acceptGrant_undisturbed hacc hpeer hprev.1).trans (ih hprev.2 held')
      · exact .refl owner held
    · exact ih hprev.2 held

theorem repairFrom_undisturbed (node : NodeId) (hpeer : peer ≠ owner)
    {answer : Except Halt (List Offer)} (hprev : ∀ issued, answer = .ok issued → ∀ offer ∈ issued, ∀ old,
      offer.previous = some old → old.owner ≠ owner) (held : Holdings) :
    Undisturbed owner held (repairFrom node peer held answer).1 := by
  cases answer with
  | error => exact .refl owner held
  | ok issued =>
    apply restore_undisturbed hpeer
    intro offer hoffer
    exact hprev issued rfl offer (mem_filter.mp hoffer).1

end Others

/-! ## A pass -/

section Pass

variable {node owner : NodeId} {notices grants : List Grant} {input : ResyncInput} {recipient : Recipient}

/-- The owner answers with the notices, and nobody else names one of its threads as replaced. -/
structure Answers (node owner : NodeId) (grants : List Grant) (input : ResyncInput) : Prop where
  asked : input.answers owner = .ok (grants.map Grant.offer)
  others : ∀ peer, peer ≠ owner → ∀ issued, input.answers peer = .ok issued → ∀ offer ∈ issued,
    ∀ old, offer.previous = some old → old.owner ≠ owner

section

variable (howner : owner ≠ "") (hnotes : Compatible node owner notices) (hsub : grants ⊆ notices)
  (hans : Answers node owner grants input)
include howner hnotes hsub hans

/-- One owner of a pass: what is held stays in agreement and stays held, and after the owner itself its
notices are held. -/
theorem resyncPeer_holds
    (hagr : ∀ notice ∈ notices, Agrees node recipient.held notice) (peer : NodeId) (reading : Int) :
    let recipient' := resyncPeer node recipient peer (input.answers peer) reading
    (∀ notice ∈ notices, Agrees node recipient'.held notice) ∧
      (∀ notice ∈ notices, Holds recipient.held notice → Holds recipient'.held notice) ∧
      (peer = owner → ∀ grant ∈ grants, Holds recipient'.held grant) := by
  dsimp only [resyncPeer]
  by_cases hpeer : peer = owner
  · subst hpeer
    rw [hans.asked]
    obtain ⟨held', hrep, hagr', hkeep, hall⟩ := repairFrom_compatible howner hnotes hsub hagr
    rw [hrep]
    exact ⟨hagr', fun notice _ => hkeep notice, fun _ => hall⟩
  · have hsame := repairFrom_undisturbed node hpeer (hans.others peer hpeer) recipient.held
    refine ⟨?_, ?_, fun h => absurd h hpeer⟩
    · intro notice hnote
      exact hsame.agrees (hnotes.proper notice hnote).owner (hagr notice hnote)
    · intro notice hnote
      exact hsame.holds (hnotes.proper notice hnote).owner (hagr notice hnote)

theorem foldl_resyncPeer_holds (peers : List NodeId) (hagr : ∀ notice ∈ notices, Agrees node recipient.held notice) :
    let recipient' := peers.foldl (fun recipient peer =>
      resyncPeer node recipient peer (input.answers peer) (input.readings peer)) recipient
    (∀ notice ∈ notices, Agrees node recipient'.held notice) ∧
      (∀ notice ∈ notices, Holds recipient.held notice → Holds recipient'.held notice) ∧
      (owner ∈ peers → ∀ grant ∈ grants, Holds recipient'.held grant) := by
  induction peers generalizing recipient with
  | nil => exact ⟨hagr, fun _ _ h => h, by simp⟩
  | cons peer rest ih =>
    obtain ⟨hagr₁, hkeep₁, hall₁⟩ := resyncPeer_holds howner hnotes hsub hans hagr peer (input.readings peer)
    obtain ⟨hagr', hkeep', hall'⟩ := ih hagr₁
    refine ⟨hagr', fun notice hnote h => hkeep' notice hnote (hkeep₁ notice hnote h), ?_⟩
    intro hasked grant hgr
    rcases mem_cons.mp hasked with heq | hlater
    · exact hkeep' grant (hsub hgr) (hall₁ heq.symm grant hgr)
    · exact hall' hlater grant hgr

end

theorem recovered_of_holds {held : Holdings} {grant : Grant} (hagr : Agrees node held grant)
    (hhld : Holds held grant) : Recovered held grant.threadRef := by
  obtain ⟨hkn, hstor⟩ := hhld
  obtain ⟨row, hrow⟩ := Option.isSome_iff_exists.mp hstor
  exact ⟨hkn, grant.id, row, hrow, (hagr row hrow).2.2⟩

end Pass

end Onlyne.Messages
