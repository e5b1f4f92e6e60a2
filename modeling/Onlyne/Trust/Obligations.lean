import Onlyne.Trust.Calls
import Onlyne.Trust.Rows

/-!
# Trust: obligations and the rotation window

Approval and rotation share one obligation slot per peer.  `OwedChange` says once what a transaction
can do to these slots and to the row `security/rotation`; the laws below are proved against it.

`window_consistent_iff` proves that the window is open exactly while a rotation obligation is left,
as long as no redrive pass deletes the last rotation obligation by itself.
-/

namespace Onlyne.Trust

open Foundation Table List

/-! ## What a transaction can do to the obligations -/

/-- `OwedChange s tx outbound rotation`: committed on the rows `s`, the transaction `tx` leaves these
obligations and this rotation window. -/
inductive OwedChange (s : TrustStore) :
    Transaction → Table NodeId TrustOutbound → Option RotationWindow → Prop where
  | same {tx} : OwedChange s tx s.outbound s.rotation
  | approve {peer : KeyIdentity} {own id now} (still : rotatingTo s peer.nodeId = false) :
      OwedChange s (.request peer own id now)
        (s.outbound.put peer.nodeId (approvalObligation now peer own id)) s.rotation
  | unblock {value : TrustStatement} {seeded now owed} (row : s.outbound.get value.nodeId = some owed) :
      OwedChange s (.receive value seeded now)
        (s.outbound.put value.nodeId { owed with blocked := none }) s.rotation
  | park {node nonce now owed} (row : s.outbound.get node = some owed) : OwedChange s (.park node nonce now)
        (s.outbound.put node { owed with blocked := some (now + refusedRetryMs) }) s.rotation
  | settle {node nonce} {owed : TrustOutbound}
      (row : s.outbound.get node = some owed) (echoed : owed.nonce = nonce) :
      OwedChange s (.settle node nonce) (s.outbound.delete node) (dropObligation s node owed).rotation
  | revoke {node owed} (row : s.outbound.get node = some owed) :
      OwedChange s (.revoke node) (s.outbound.delete node) (dropObligation s node owed).rotation
  | discard {owed : TrustOutbound} (still : stillOwed s owed = true) :
      OwedChange s (.compare owed none) (s.outbound.delete owed.nodeId) s.rotation
  | replace {owed next : TrustOutbound} (still : stillOwed s owed = true) :
      OwedChange s (.compare owed (some next)) (s.outbound.put owed.nodeId next) s.rotation
  | close : OwedChange s .closeWindow s.outbound (closeWindow s).rotation
  | abandon : OwedChange s .abandonRotation (abandonRotation s).outbound none
  | rotate {previous fingerprint} {peers : List (TrustEntry × String)}
      {now} (closed : s.rotation = none) (some_peer : peers ≠ []) :
      OwedChange s (.rotate previous fingerprint peers now)
        (peers.foldl (fun rows peer => rows.put peer.1.nodeId
          (rotationObligation now previous fingerprint peer.1 peer.2)) s.outbound) (some ⟨fingerprint, now⟩)

theorem closeWindow_rotation (s : TrustStore) :
    (closeWindow s).rotation = if rotationOwed s then s.rotation else none := by
  unfold closeWindow
  split_ifs <;> rfl

theorem dropObligation_rotation (s : TrustStore) (node : NodeId) (owed : TrustOutbound) :
    (dropObligation s node owed).rotation = if owed.kind = .rotation then
        (closeWindow { s with outbound := s.outbound.delete node }).rotation
      else s.rotation := by
  unfold dropObligation
  split_ifs <;> rfl

variable {s : TrustStore} {cfg : Config} {n n' : Node} {a : Act} {outbound : Table NodeId TrustOutbound}
  {node : NodeId} {owed next : TrustOutbound} {now : Int}

/-- Every transaction changes the obligations in one of the ways of `OwedChange`. -/
theorem Transaction.owed_cases {crypto : Crypto} {s' : TrustStore} {tx : Transaction}
    (h : tx.Commits crypto s s') : OwedChange s tx s'.outbound s'.rotation := by
  cases tx with
  | request =>
    obtain ⟨commit, hc⟩ := h
    obtain ⟨-, -, hrotating, -, hout, hrot, -⟩ := requestTx_ok hc
    rw [hout, hrot]
    split_ifs with howes
    · apply OwedChange.approve
      simp only [hrotating, Bool.and_eq_true, Bool.not_eq_eq_eq_not, Bool.not_true] at howes
      exact howes.2
    · exact .same
  | receive =>
    obtain ⟨entry, hc⟩ := h
    obtain ⟨-, -, -, -, m, hm, rfl⟩ := receiveTx_ok hc
    obtain ⟨-, rfl⟩ := consumeNonce_ok hm
    unfold Onlyne.Trust.unblock
    split
    · exact .same
    · next owed hrow =>
      split_ifs
      · exact .unblock hrow
      · exact .same
  | authenticate =>
    have hc := (consumeNonce_ok (authenticateTx_ok h).2).2
    rw [hc]
    exact .same
  | revoke node =>
    rw [h]
    unfold revokeTx
    split
    · rw [markRevoked_outbound, markRevoked_rotation]
      exact .same
    · next owed hrow =>
      have hrot : (dropObligation (markRevoked s node) node owed).rotation = (dropObligation s node owed).rotation := by
        simp only [dropObligation_rotation, closeWindow_rotation, rotationOwed,
          markRevoked_outbound, markRevoked_rotation]
        rfl
      rw [dropObligation_outbound, markRevoked_outbound, hrot]
      exact .revoke hrow
  | settle =>
    rw [h]
    unfold Onlyne.Trust.settle
    split
    · exact .same
    · next owed hrow =>
      split_ifs with hne
      · exact .same
      · rw [dropObligation_outbound]
        exact .settle hrow (not_not.mp hne)
  | park =>
    rw [h]
    unfold Onlyne.Trust.park
    split
    · exact .same
    · next owed hrow =>
      split_ifs
      · exact .park hrow
      · exact .same
  | compare expected next =>
    rw [h, compareObligation_rotation]
    unfold compareObligation
    split_ifs with hstill
    · cases next with
      | none => exact .discard hstill
      | some => exact .replace hstill
    · exact .same
  | closeWindow =>
    rw [h, closeWindow_outbound]
    exact .close
  | abandonRotation =>
    rw [h]
    exact .abandon
  | rotate =>
    obtain ⟨hcl, ⟨-, rfl⟩ | ⟨hpeers, rfl⟩⟩ := rotateTx_ok h
    · exact .same
    · exact .rotate hcl hpeers

/-- An act leaves the obligations alone or changes them as its transaction does. -/
theorem step_owed (h : step cfg n a = some n') :
    (n'.store.outbound = n.store.outbound ∧ n'.store.rotation = n.store.rotation) ∨
      ∃ tx, a.transaction cfg n.now = some tx ∧ tx.RunBy cfg n.now a ∧
        OwedChange n.store tx n'.store.outbound n'.store.rotation := by
  rcases step_transaction h with hsame | ⟨tx, htx, hcom⟩
  · exact .inl (by rw [hsame]; exact ⟨rfl, rfl⟩)
  · exact .inr ⟨tx, htx, Act.transaction_runBy htx, Transaction.owed_cases hcom⟩

/-! ## The rotation window -/

def RotationOwed (outbound : Table NodeId TrustOutbound) : Prop :=
  ∃ node owed, outbound.get node = some owed ∧ owed.kind = .rotation

theorem rotationOwed_iff : rotationOwed s = true ↔ RotationOwed s.outbound := by
  unfold rotationOwed RotationOwed
  rw [any_eq_true]
  constructor
  · rintro ⟨⟨node, owed⟩, hrow, hkind⟩
    exact ⟨node, owed, mem_rows.mp hrow, of_decide_eq_true hkind⟩
  · rintro ⟨node, owed, hrow, hkind⟩
    exact ⟨(node, owed), mem_rows.mpr hrow, decide_eq_true hkind⟩

/-- The row `security/rotation` exists exactly when some obligation carries a rotation. -/
def WindowConsistent (s : TrustStore) : Prop := s.rotation.isSome = rotationOwed s

instance (s : TrustStore) : Decidable (WindowConsistent s) :=
  inferInstanceAs (Decidable (_ = _))

/-- Some obligation other than the one towards `node` carries a rotation. -/
theorem rotationOwed_delete : RotationOwed (outbound.delete node) ↔
      ∃ other owed, other ≠ node ∧ outbound.get other = some owed ∧ owed.kind = .rotation := by
  constructor
  · rintro ⟨other, owed, hrow, hkind⟩
    obtain ⟨hne, hrow⟩ := get_of_delete hrow
    exact ⟨other, owed, hne, hrow, hkind⟩
  · rintro ⟨other, owed, hne, hrow, hkind⟩
    exact ⟨other, owed, by rw [get_delete_ne _ hne, hrow], hkind⟩

theorem rotationOwed_put (hrow : outbound.get node = some owed) (hkind : next.kind = owed.kind) :
    RotationOwed (outbound.put node next) ↔ RotationOwed outbound := by
  constructor
  · rintro ⟨other, row, hget, hrot⟩
    rcases get_put_cases hget with ⟨-, rfl⟩ | ⟨-, hget⟩
    · exact ⟨node, owed, hrow, by rw [← hkind, hrot]⟩
    · exact ⟨other, row, hget, hrot⟩
  · rintro ⟨other, row, hget, hrot⟩
    by_cases hoth : other = node
    · subst hoth
      rw [hrow] at hget
      cases hget
      exact ⟨other, next, get_put_self .., by rw [hkind, hrot]⟩
    · exact ⟨other, row, by rw [get_put_ne _ _ hoth, hget], hrot⟩

theorem rotationOwed_put_approval (hnext : next.kind = .approval)
    (hrow : ∀ owed, outbound.get node = some owed → owed.kind ≠ .rotation) :
    RotationOwed (outbound.put node next) ↔ RotationOwed outbound := by
  constructor
  · rintro ⟨other, row, hget, hrot⟩
    rcases get_put_cases hget with ⟨-, rfl⟩ | ⟨-, hget⟩
    · rw [hnext] at hrot
      cases hrot
    · exact ⟨other, row, hget, hrot⟩
  · rintro ⟨other, row, hget, hrot⟩
    have hoth : other ≠ node := by
      rintro rfl
      exact hrow row hget hrot
    exact ⟨other, row, by rw [get_put_ne _ _ hoth, hget], hrot⟩

/-- The rows after a rotation: those it wrote for its peers, and the rows of the others. -/
theorem rotate_rows {previous : PrivateKey} {fingerprint : Fingerprint} {peers : List (TrustEntry × String)}
    (h : (peers.foldl (fun rows peer => rows.put peer.1.nodeId
      (rotationObligation now previous fingerprint peer.1 peer.2)) outbound).get node = some owed) :
    (∃ peer ∈ peers, peer.1.nodeId = node ∧ owed = rotationObligation now previous fingerprint peer.1 peer.2) ∨
    (outbound.get node = some owed ∧ ∀ peer ∈ peers, peer.1.nodeId ≠ node) := by
  induction peers generalizing outbound with
  | nil => exact .inr ⟨h, by simp⟩
  | cons peer rest ih =>
    rcases ih h with ⟨other, hmem, hnode, howed⟩ | ⟨hrow, hnone⟩
    · exact .inl ⟨other, mem_cons_of_mem _ hmem, hnode, howed⟩
    · rcases get_put_cases hrow with ⟨hnode, rfl⟩ | ⟨hnode, hrow⟩
      · exact .inl ⟨peer, mem_cons_self, hnode.symm, rfl⟩
      · right
        refine ⟨hrow, ?_⟩
        intro other hoth
        rcases mem_cons.mp hoth with rfl | hrest
        · exact fun heq => hnode heq.symm
        · exact hnone other hrest

/-- Every peer of a rotation has an obligation afterwards, and no row is lost. -/
theorem rotate_rows_some (now : Int) (previous : PrivateKey) (fingerprint : Fingerprint)
    (peers : List (TrustEntry × String)) (outbound : Table NodeId TrustOutbound)
    (h : (outbound.get node).isSome = true ∨ ∃ peer ∈ peers, peer.1.nodeId = node) :
    ((peers.foldl (fun rows peer => rows.put peer.1.nodeId
      (rotationObligation now previous fingerprint peer.1 peer.2)) outbound).get node).isSome = true := by
  induction peers generalizing outbound with
  | nil => simpa using h
  | cons peer rest ih =>
    apply ih
    by_cases hnode : node = peer.1.nodeId
    · left
      rw [hnode, get_put_self]
      rfl
    · rw [get_put_ne _ _ hnode]
      rcases h with hrow | ⟨other, hoth, heq⟩
      · exact .inl hrow
      · rcases mem_cons.mp hoth with rfl | hrest
        · exact absurd heq.symm hnode
        · exact .inr ⟨other, hrest, heq⟩

/-! ## One slot -/

/-- The transactions that touch the back-off mark of an obligation and nothing else. -/
def Transaction.marks : Transaction → Bool
  | .receive .. | .park .. => true
  | _ => false

/-- `SlotChange s tx node after`: committed on the rows `s`, the transaction `tx` leaves `after` in the
obligation slot of `node`. -/
inductive SlotChange (s : TrustStore) : Transaction → NodeId → Option TrustOutbound → Prop where
  | same {tx node} : SlotChange s tx node (s.outbound.get node)
  | approve {peer : KeyIdentity} {own id now} (still : rotatingTo s peer.nodeId = false) :
      SlotChange s (.request peer own id now) peer.nodeId (some (approvalObligation now peer own id))
  | mark {tx : Transaction} {node owed blocked}
      (marks : tx.marks = true) (row : s.outbound.get node = some owed) :
      SlotChange s tx node (some { owed with blocked := blocked })
  | settle {node : NodeId} {owed : TrustOutbound} (row : s.outbound.get node = some owed) :
      SlotChange s (.settle node owed.nonce) node none
  | revoke {node : NodeId} : SlotChange s (.revoke node) node none
  | discard {owed : TrustOutbound} (still : stillOwed s owed = true) :
      SlotChange s (.compare owed none) owed.nodeId none
  | replace {owed next : TrustOutbound} (still : stillOwed s owed = true) :
      SlotChange s (.compare owed (some next)) owed.nodeId (some next)
  | abandon {node : NodeId} {owed : TrustOutbound} (row : s.outbound.get node = some owed)
      (kind : owed.kind = .rotation) : SlotChange s .abandonRotation node none
  | rotate {previous fingerprint peers now} {peer : TrustEntry × String} (closed : s.rotation = none) (member : peer ∈ peers) :
      SlotChange s (.rotate previous fingerprint peers now) peer.1.nodeId
        (some (rotationObligation now previous fingerprint peer.1 peer.2))

theorem abandonRotation_rows : (abandonRotation s).outbound.get node = some owed ↔
      s.outbound.get node = some owed ∧ owed.kind ≠ .rotation := by
  unfold abandonRotation
  rw [get_deleteWhere, Option.filter_eq_some_iff]
  simp

section SlotChange

variable {s : TrustStore} {tx : Transaction} {key : NodeId} (node : NodeId)

theorem SlotChange.put {next : TrustOutbound} (h : SlotChange s tx key (some next)) :
    SlotChange s tx node ((s.outbound.put key next).get node) := by
  rw [get_put]
  split_ifs with hnode
  · rw [hnode]
    exact h
  · exact .same

theorem SlotChange.delete (h : SlotChange s tx key none) : SlotChange s tx node ((s.outbound.delete key).get node) := by
  rw [get_delete]
  split_ifs with hnode
  · rw [hnode]
    exact h
  · exact .same

theorem SlotChange.abandonRotation : SlotChange s .abandonRotation node ((abandonRotation s).outbound.get node) := by
  cases hrow : s.outbound.get node with
  | none =>
    have hsame : (Onlyne.Trust.abandonRotation s).outbound.get node = s.outbound.get node := by
      simp [Onlyne.Trust.abandonRotation, get_deleteWhere, hrow]
    rw [hsame]
    exact .same
  | some owed =>
    by_cases hkind : owed.kind = .rotation
    · have hnone : (Onlyne.Trust.abandonRotation s).outbound.get node = none := by
        simp [Onlyne.Trust.abandonRotation, get_deleteWhere, hrow, hkind]
      rw [hnone]
      exact .abandon hrow hkind
    · rw [abandonRotation_rows.mpr ⟨hrow, hkind⟩, ← hrow]
      exact .same

theorem SlotChange.rotatePeers {previous : PrivateKey} {fingerprint : Fingerprint}
    {peers : List (TrustEntry × String)} {now : Int} (closed : s.rotation = none) :
    SlotChange s (.rotate previous fingerprint peers now) node ((peers.foldl (fun rows peer => rows.put peer.1.nodeId
        (rotationObligation now previous fingerprint peer.1 peer.2)) s.outbound).get node) := by
  generalize haft : (List.foldl _ _ _ : Table NodeId TrustOutbound).get node = after
  cases after with
  | none =>
    have hnone : s.outbound.get node = none := by
      by_contra hsome
      have hkept := rotate_rows_some now previous fingerprint peers s.outbound
        (.inl (Option.isSome_iff_ne_none.mpr hsome))
      rw [haft] at hkept
      cases hkept
    rw [← hnone]
    exact .same
  | some =>
    rcases rotate_rows haft with ⟨peer, hpeer, rfl, rfl⟩ | ⟨hrow, -⟩
    · exact .rotate closed hpeer
    · rw [← hrow]
      exact .same

theorem OwedChange.slot {outbound : Table NodeId TrustOutbound} {rotation : Option RotationWindow}
    (h : OwedChange s tx outbound rotation) : SlotChange s tx node (outbound.get node) := by
  cases h with
  | same => exact .same
  | approve still => exact .put node (.approve still)
  | unblock row | park row => exact .put node (.mark rfl row)
  | settle row echoed =>
    subst echoed
    exact .delete node (.settle row)
  | revoke => exact .delete node .revoke
  | discard still => exact .delete node (.discard still)
  | replace still => exact .put node (.replace still)
  | close => exact .same
  | abandon => exact .abandonRotation node
  | rotate closed => exact .rotatePeers node closed

end SlotChange

theorem step_slot (h : step cfg n a = some n') (node : NodeId) :
    n'.store.outbound.get node = n.store.outbound.get node ∨
      ∃ tx, a.transaction cfg n.now = some tx ∧ tx.RunBy cfg n.now a ∧
        SlotChange n.store tx node (n'.store.outbound.get node) := by
  rcases step_owed h with ⟨hout, -⟩ | ⟨tx, htx, hby, hchg⟩
  · exact .inl (by rw [hout])
  · exact .inr ⟨tx, htx, hby, hchg.slot node⟩

/-! ## Consistency of the window -/

theorem windowConsistent_iff : WindowConsistent s ↔ (s.rotation.isSome = true ↔ RotationOwed s.outbound) := by
  unfold WindowConsistent
  rw [Bool.eq_iff_iff, rotationOwed_iff]

theorem stillOwed_iff : stillOwed s owed = true ↔ ∃ current, s.outbound.get owed.nodeId = some current ∧
      current.nonce = owed.nonce ∧ current.kind = owed.kind := by
  unfold stillOwed
  split
  · next hnone => simp [hnone]
  · next current hrow => simp [hrow]

theorem RotationOwed.of_delete (h : RotationOwed (outbound.delete node)) : RotationOwed outbound := by
  obtain ⟨other, owed, -, hrow, hkind⟩ := rotationOwed_delete.mp h
  exact ⟨other, owed, hrow, hkind⟩

theorem dropObligation_covered (hcover : RotationOwed s.outbound → s.rotation.isSome = true)
    (hleft : RotationOwed (s.outbound.delete node)) : (dropObligation s node owed).rotation.isSome = true := by
  have hopen := hcover hleft.of_delete
  have howed : rotationOwed { s with outbound := s.outbound.delete node } = true := rotationOwed_iff.mpr hleft
  rw [dropObligation_rotation, closeWindow_rotation, howed]
  simpa using hopen

theorem dropObligation_closes (hrow : s.outbound.get node = some owed)
    (hopened : s.rotation.isSome = true → RotationOwed s.outbound)
    (hopen : (dropObligation s node owed).rotation.isSome = true) : RotationOwed (s.outbound.delete node) := by
  rw [dropObligation_rotation, closeWindow_rotation] at hopen
  split_ifs at hopen with hkind howed
  · exact rotationOwed_iff.mp howed
  · cases hopen
  · obtain ⟨other, row, hget, hrot⟩ := hopened hopen
    refine rotationOwed_delete.mpr ⟨other, row, ?_, hget, hrot⟩
    rintro rfl
    rw [hrow] at hget
    cases hget
    exact hkind hrot

/-- A redrive pass deletes the last rotation obligation and leaves the window to a later
transaction. -/
def dropsLastRotation (cfg : Config) (t : Transition Node Act) : Bool :=
  match t.act.transaction cfg t.before.now with
  | some (.compare owed none) =>
    stillOwed t.before.store owed && owed.kind = .rotation &&
      !rotationOwed { t.before.store with outbound := t.before.store.outbound.delete owed.nodeId }
  | _ => false

theorem not_rotation_of_still (h : rotatingTo s node = false) :
    ∀ owed, s.outbound.get node = some owed → owed.kind ≠ .rotation := by
  intro owed hrow
  simpa [rotatingTo, hrow] using h

theorem replace_fields (h : Transaction.RunBy cfg now a (.compare owed (some next))) :
    next.nodeId = owed.nodeId ∧ next.kind = owed.kind ∧ next.previous = owed.previous ∧
      next.fingerprint = owed.fingerprint := by
  rcases h with ⟨rfl, -⟩ | ⟨_, _, _, rfl, -⟩ <;> exact ⟨rfl, rfl, rfl, rfl⟩

section Change

variable {s : TrustStore} {tx : Transaction} {outbound : Table NodeId TrustOutbound}
  {rotation : Option RotationWindow} {cfg : Config} {now : Int} {a : Act}

section

variable (h : OwedChange s tx outbound rotation) (hby : tx.RunBy cfg now a)
include h hby

theorem OwedChange.covered (hcover : RotationOwed s.outbound → s.rotation.isSome = true)
    (hleft : RotationOwed outbound) : rotation.isSome = true := by
  cases h with
  | same => exact hcover hleft
  | approve still =>
    exact hcover ((rotationOwed_put_approval rfl (not_rotation_of_still still)).mp hleft)
  | unblock row | park row => exact hcover ((rotationOwed_put row (by rfl)).mp hleft)
  | settle | revoke => exact dropObligation_covered hcover hleft
  | discard => exact hcover hleft.of_delete
  | replace still =>
    obtain ⟨current, hrow, -, hkind⟩ := stillOwed_iff.mp still
    have hnext := (replace_fields hby).2.1
    exact hcover ((rotationOwed_put hrow (hnext.trans hkind.symm)).mp hleft)
  | close =>
    rw [closeWindow_rotation, rotationOwed_iff.mpr hleft]
    exact hcover hleft
  | abandon =>
    obtain ⟨node, owed, hrow, hkind⟩ := hleft
    exact absurd hkind (abandonRotation_rows.mp hrow).2
  | rotate => rfl

/-- Every change of the obligations leaves a rotation owed while the window is open, except the
deletion of the last rotation obligation by a redrive pass. -/
theorem OwedChange.opened (hopened : s.rotation.isSome = true → RotationOwed s.outbound)
    (hkeep : ∀ owed, tx = .compare owed none → stillOwed s owed = true → owed.kind = .rotation →
      RotationOwed (s.outbound.delete owed.nodeId)) (hopen : rotation.isSome = true) : RotationOwed outbound := by
  cases h with
  | same => exact hopened hopen
  | approve still =>
    exact (rotationOwed_put_approval rfl (not_rotation_of_still still)).mpr (hopened hopen)
  | unblock row | park row => exact (rotationOwed_put row (by rfl)).mpr (hopened hopen)
  | settle row | revoke row => exact dropObligation_closes row hopened hopen
  | @discard owed still =>
    obtain ⟨current, hrow, -, hkind⟩ := stillOwed_iff.mp still
    obtain ⟨other, row, hget, hrot⟩ := hopened hopen
    by_cases hoth : other = owed.nodeId
    · subst hoth
      rw [hrow] at hget
      cases hget
      exact hkeep owed rfl still (hkind.symm.trans hrot)
    · exact rotationOwed_delete.mpr ⟨other, row, hoth, hget, hrot⟩
  | replace still =>
    obtain ⟨current, hrow, -, hkind⟩ := stillOwed_iff.mp still
    have hnext := (replace_fields hby).2.1
    exact (rotationOwed_put hrow (hnext.trans hkind.symm)).mpr (hopened hopen)
  | close =>
    rw [closeWindow_rotation] at hopen
    split_ifs at hopen with howed
    · exact rotationOwed_iff.mp howed
    · cases hopen
  | abandon => cases hopen
  | @rotate previous fingerprint peers clock closed some_peer =>
    obtain ⟨peer, hpeer⟩ := exists_mem_of_ne_nil peers some_peer
    obtain ⟨owed, howed⟩ := Option.isSome_iff_exists.mp (rotate_rows_some clock previous fingerprint peers s.outbound
        (.inr ⟨peer, hpeer, rfl⟩))
    refine ⟨peer.1.nodeId, owed, howed, ?_⟩
    rcases rotate_rows howed with ⟨other, -, -, rfl⟩ | ⟨-, hnone⟩
    · rfl
    · exact absurd rfl (hnone peer hpeer)

end

end Change

theorem rotation_covered {own : PrivateKey} {seeds : List TrustSeed} {h : List (Transition Node Act)}
    (hrun : Run (step cfg) (Node.init own seeds now) h n) :
    RotationOwed n.store.outbound → n.store.rotation.isSome = true := by
  refine hrun.invariant (I := fun n => RotationOwed n.store.outbound → n.store.rotation.isSome = true) ?_ ?_
  · rintro ⟨node, owed, hrow, -⟩
    cases hrow
  · intro s a s' hcover hstep
    rcases step_owed hstep with ⟨hout, hrot⟩ | ⟨tx, -, hby, hchg⟩
    · rw [hout, hrot]
      exact hcover
    · exact hchg.covered hby hcover

/-- From a consistent window, one act leaves a consistent window exactly when it is not a redrive
pass deleting the last rotation obligation. -/
theorem step_windowConsistent_iff (hcons : WindowConsistent n.store) (hstep : step cfg n a = some n') :
    WindowConsistent n'.store ↔ dropsLastRotation cfg ⟨n, a, n'⟩ = false := by
  rw [windowConsistent_iff] at hcons ⊢
  constructor
  · intro hcons'
    rw [← Bool.not_eq_true]
    intro hdrops
    unfold dropsLastRotation at hdrops
    split at hdrops
    · next owed htx =>
      simp only [Bool.and_eq_true, decide_eq_true_eq, Bool.not_eq_eq_eq_not, Bool.not_true] at hdrops
      obtain ⟨⟨hstill, hkind⟩, hlast⟩ := hdrops
      have hst : n'.store = { n.store with outbound := n.store.outbound.delete owed.nodeId } := by
        rw [step_store hstep, htx]
        simp only [afterTransaction, Transaction.run, compareObligation, hstill, if_true]
      obtain ⟨current, hrow, -, hcur⟩ := stillOwed_iff.mp hstill
      have hopen := hcons.mpr ⟨owed.nodeId, current, hrow, by rw [hcur, hkind]⟩
      -- The window is still open, and nothing is left to close it.
      have hleft : RotationOwed (n.store.outbound.delete owed.nodeId) := by
        rw [hst] at hcons'
        exact hcons'.mp hopen
      rw [← Bool.not_eq_true] at hlast
      exact hlast (rotationOwed_iff.mpr hleft)
    · cases hdrops
  · intro hkeep
    rcases step_owed hstep with ⟨hout, hrot⟩ | ⟨tx, htx, hby, hchg⟩
    · rw [hout, hrot]
      exact hcons
    · refine ⟨hchg.opened hby hcons.mp ?_, hchg.covered hby hcons.mpr⟩
      rintro owed rfl hstill hkind
      have hleft : rotationOwed { n.store with outbound := n.store.outbound.delete owed.nodeId } = true := by
        simpa [dropsLastRotation, htx, hstill, hkind] using hkeep
      exact rotationOwed_iff.mp hleft

theorem windowConsistent_init (own : PrivateKey) (seeds : List TrustSeed) (now : Int) :
    WindowConsistent (Node.init own seeds now).store := rfl

/-- **Rotation window consistency.**  In every run of a node, crashes included, the window is open
exactly while a rotation obligation is left, after every transaction, exactly when no redrive pass
deletes the last rotation obligation in a transaction of its own. -/
theorem window_consistent_iff {cfg : Config} {own : PrivateKey} {seeds : List TrustSeed} {now : Int}
    {h : List (Transition Node Act)} {n : Node} (hrun : Run (step cfg) (Node.init own seeds now) h n) :
    (∀ t ∈ h, WindowConsistent t.after.store) ↔ ∀ t ∈ h, dropsLastRotation cfg t = false :=
  hrun.forall_after_iff (I := fun n => WindowConsistent n.store)
    (C := fun t => dropsLastRotation cfg t = false) (windowConsistent_init own seeds now)
    fun _ _ _ hcons hstep => step_windowConsistent_iff hcons hstep

namespace Scenario

/-- The row of `b` after an accepted invitation. -/
def bobTrusted : TrustEntry :=
  { nodeId := "b", publicKey := "kb", fingerprint := "fp-kb", state := .trusted
    firstSeen := 0, lastChecked := 0, localApproved := true, remoteApproved := true
    baseUrl := "https://b" }

/-- The rotation statement `a` owes `b`. -/
def rotationOwedToBob : TrustOutbound := rotationObligation 0 "ka" "fp-ka2" bobTrusted "r1"

/-- `a` rotates its key with `b` as its only peer, up to the commit. -/
def rotationCommitted : List Act :=
  acceptedInvitation ++ [.rotate "ka2", .advance (.rotateList "ka" "ka2") .go,
    .advance (.rotateCommit "ka" "ka2" [bobTrusted]) (.ids ["r1"])]

/-- The owner revokes `b` after `rotate` has listed its peers; a redrive pass deletes the statement
owed to the revoked peer, and the process ends before the pass closes the window. -/
def windowLeftOpen : List Act :=
  acceptedInvitation ++ [.rotate "ka2", .advance (.rotateList "ka" "ka2") .go, .revoke "b",
    .advance (.rotateCommit "ka" "ka2" [bobTrusted]) (.ids ["r1"]), .redrive,
    .advance (.redrive rotationOwedToBob) .go,
    .advance (.redriveDelete .gone rotationOwedToBob) .go, .crash]

end Scenario

open Scenario in
/-- A revocation after the commit closes the window with its last obligation. -/
theorem window_consistent_revokedLast : ∃ h n, Run (step (config "a")) (Node.init "ka" [] 0) h n ∧
      (∃ t ∈ h, t.before.store.rotation.isSome = true ∧ t.after.store.rotation = none) ∧
      ∀ t ∈ h, WindowConsistent t.after.store := by
  obtain ⟨h, n, hrun, hp⟩ := exists_run (step (config "a")) (Node.init "ka" [] 0) (rotationCommitted ++ [.revoke "b"])
    (fun h _ =>
      (∃ t ∈ h, t.before.store.rotation.isSome = true ∧ t.after.store.rotation = none) ∧
      ∀ t ∈ h, dropsLastRotation (config "a") t = false) (by decide)
  exact ⟨h, n, hrun, hp.1, (window_consistent_iff hrun).mpr hp.2⟩

/-- A window that nothing can close: after a restart it is open, no obligation is left and no call
is in flight. -/
theorem window_left_open : ∃ h n, Run (step (Scenario.config "a")) (Node.init "ka" [] 0) h n ∧
      ¬ WindowConsistent n.store ∧ n.store.rotation.isSome = true ∧ n.store.outbound.rows = [] ∧ n.tasks = [] := by
  exact exists_run _ _ Scenario.windowLeftOpen _ (by decide)

end Onlyne.Trust
