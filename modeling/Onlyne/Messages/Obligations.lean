import Onlyne.Messages.ThreadLog

/-!
# Messages: what an obligation vouches for

An obligation carries a copy of its entry until the entry expires or its recipient may not read it any
more.  In every state a node reaches, a copy is the copy of an entry that is still stored, under the
number it names, and an expired obligation carries none.  No assumption about the trace hook is needed:
an admission cut short has stored its entry before its obligations.
-/

namespace Onlyne.Messages

open Foundation Table List

section Obligations

variable {D : Type} {request : SendRequest} {input : AdmitInput} {auth : Auth}

/-! ## The invariant -/

/-- An obligation of a thread tells the truth about the stored entries. -/
structure Vouched (entries : Table (ThreadRef × Nat) Entry) (ref : ThreadRef) (row : Attention) :
    Prop where
  expired : row.expired = true → row.entry = none
  stored : ∀ entry, row.entry = some entry →
    row.messageRef = entry.message.ref ∧ entries.get (ref, entry.seq) = some entry

variable {row : Attention} {ctx : Context D} {tx : Store D} {slot : ThreadRef × String} {staged : Staged}

theorem Vouched.of_stripped {entries : Table (ThreadRef × Nat) Entry} {ref : ThreadRef} (h : row.entry = none) :
    Vouched entries ref row where
  expired _ := h
  stored entry hent := by
    rw [h] at hent
    cases hent

/-- The entries are numbered below the next number of their thread, and the obligations vouch for
them. -/
structure Attested (s : Store D) : Prop where
  threads : ∀ ref thread, s.thread.get ref = some thread → thread.threadRef = ref
  entries : ∀ slot entry, s.entry.get slot = some entry →
    (entry.threadRef, entry.seq) = slot ∧ slot.2 < nextSeq s.log slot.1
  vouched : ∀ slot row, s.attention.get slot = some row → Vouched s.entry slot.1 row

theorem attested_empty : Attested ({} : Store D) where
  threads ref thread hrow := by cases hrow
  entries slot entry hrow := by cases hrow
  vouched slot row hrow := by cases hrow

theorem Upkeep.threads {log log' : Log D} (h : Upkeep log log')
    (hthrs : ∀ ref thread, log.thread.get ref = some thread → thread.threadRef = ref) :
    ∀ ref thread, log'.thread.get ref = some thread → thread.threadRef = ref := by
  intro ref thread hrow
  cases h with
  | kept => exact hthrs ref thread hrow
  | opened | recorded =>
    exact of_put hthrs hrow rfl
  | retitled title row =>
    exact of_put hthrs hrow (hthrs _ _ row :)
  | buried rows =>
    rw [buried_thread rows] at hrow
    exact hthrs ref thread hrow

theorem Attested.upkeep {s s' : Store D} (h : Attested s) (hkeep : Upkeep s.log s'.log)
    (hvouch : ∀ slot row, s'.attention.get slot = some row → Vouched s'.entry slot.1 row) : Attested s' where
  threads := hkeep.threads h.threads
  entries := by
    intro slot entry hrow
    rw [hkeep.nextSeq_eq h.threads]
    exact h.entries slot entry (hkeep.entry hrow)
  vouched := hvouch

/-! ## Admission -/

/-- The obligations found after an admission are old ones, or those of its entry. -/
theorem writeAttentions_get {entry : Entry} {plan : DeliveryPlan} {trace : Except Thrown Unit}
    {nodes : List NodeId} (h : (writeAttentions ctx entry plan trace tx nodes).2.attention.get slot = some row) :
    tx.attention.get slot = some row ∨ slot.1 = entry.threadRef ∧ ∃ node, row = attentionFor entry plan node := by
  induction nodes generalizing tx with
  | nil => exact .inl h
  | cons node rest ih =>
    have hwrite (tx' : Store D) (outcome : Except Thrown Unit)
        (heq : writeAttention ctx tx (attentionFor entry plan node) plan trace = (outcome, tx')) :
        tx'.attention = tx.attention.put (entry.threadRef, (attentionFor entry plan node).obligationId)
          (attentionFor entry plan node) := by
      unfold writeAttention at heq
      split_ifs at heq <;> cases heq <;> rfl
    have hnew {tx' : Store D} {outcome : Except Thrown Unit}
        (heq : writeAttention ctx tx (attentionFor entry plan node) plan trace = (outcome, tx'))
        (hrow : tx'.attention.get slot = some row) : tx.attention.get slot = some row ∨
          slot.1 = entry.threadRef ∧ ∃ node, row = attentionFor entry plan node := by
      rw [hwrite tx' outcome heq] at hrow
      rcases get_put_cases hrow with ⟨rfl, rfl⟩ | ⟨-, hold⟩
      · exact .inr ⟨rfl, node, rfl⟩
      · exact .inl hold
    unfold writeAttentions at h
    split at h
    · next heq => exact hnew heq h
    · next heq =>
      rcases ih h with hrow | hent
      · exact hnew heq hrow
      · exact .inr hent

theorem append_get {digest requestDigest : D}
    (h : (append ctx tx auth request input digest requestDigest staged).2.attention.get slot = some row) :
    tx.attention.get slot = some row ∨ slot.1 = staged.threadRef ∧
      ∃ node, row = attentionFor (staged.entry auth request.message) request.plan node := by
  have hwr : (writeEntry ctx tx auth request input digest requestDigest staged).attention = tx.attention := by
    simp only [writeEntry, openContact, spendPermit]
    cases staged.firstContact <;> cases staged.spent <;> cases request.message.inReplyTo <;> rfl
  have hrow : (writeAttentions ctx (staged.entry auth request.message) request.plan
      input.traceReceived (writeEntry ctx tx auth request input digest requestDigest staged)
      staged.recipients).2.attention.get slot = some row := by
    unfold append at h
    dsimp only at h
    split at h
    · next heq =>
      rw [heq]
      exact h
    · next heq =>
      rw [heq]
      exact h
  rw [← hwr]
  exact writeAttentions_get hrow

theorem Landed.threadRef_eq {log : Log D} (h : Landed log staged)
    (hthrs : ∀ ref thread, log.thread.get ref = some thread → thread.threadRef = ref) :
    staged.thread.threadRef = staged.threadRef := by
  unfold Landed at h
  split at h
  · exact hthrs _ _ h
  · obtain ⟨-, title, createdAt, hthr⟩ := h
    rw [hthr]
    rfl

theorem Attested.append {s : Store D} (message : Table MessageRef (Remembered D)) (h : Attested s)
    (hstg : stage ctx s request.message input = .ok staged) :
    Attested ((appended ctx s auth request input staged).withMessage message) := by
  have hland := stage_landed hstg
  have hnext := hland.nextSeq_eq
  obtain ⟨_, _, _, _, _, hrows⟩ := append_rows ctx s auth request input staged
  have hthr := congrArg Store.thread hrows
  have hent := congrArg Store.entry hrows
  have hnum (ref : ThreadRef) : nextSeq ((appended ctx s auth request input staged).withMessage message).log ref =
      if ref = staged.threadRef then staged.thread.nextSeq + 1 else nextSeq s.log ref := by
    rw [nextSeq_put s.log hthr]
  -- The number of the new entry has not been given out.
  have hfree {slot : ThreadRef × Nat} {entry : Entry} (hrow : s.entry.get slot = some entry) :
      slot ≠ (staged.threadRef, staged.thread.nextSeq) := by
    rintro rfl
    have hlt := (h.entries _ entry hrow).2
    dsimp only at hlt
    omega
  constructor
  case threads =>
    intro ref thread hrow
    rw [hthr] at hrow
    exact of_put h.threads hrow (hland.threadRef_eq h.threads)
  case entries =>
    intro slot entry hrow
    rw [hnum]
    rw [hent] at hrow
    rcases get_put_cases hrow with ⟨rfl, rfl⟩ | ⟨-, hold⟩
    · rw [if_pos rfl]
      exact ⟨rfl, Nat.lt_succ_self _⟩
    · obtain ⟨hslot, hlt⟩ := h.entries slot entry hold
      refine ⟨hslot, ?_⟩
      split_ifs with href
      · rw [href] at hlt
        omega
      · exact hlt
  case vouched =>
    intro slot row hrow
    rw [hent]
    rcases append_get hrow with hold | ⟨href, node, rfl⟩
    · obtain ⟨hexp, hstor⟩ := h.vouched slot row hold
      refine ⟨hexp, ?_⟩
      intro entry hcopy
      obtain ⟨hmsg, hrow⟩ := hstor entry hcopy
      exact ⟨hmsg, by rw [get_put_ne _ _ (hfree hrow)]; exact hrow⟩
    · refine ⟨?_, ?_⟩
      · intro hexp
        cases hexp
      · intro entry hcopy
        cases hcopy
        rw [href]
        exact ⟨rfl, get_put_self ..⟩

/-! ## Expiry -/

/-- After the obligations of a message are stripped, a row that carries an entry was there before, and
is not one of them. -/
theorem foldl_stripAttention_get {identity : MessageRef} {rows : List ((ThreadRef × String) × Attention)}
    (h : (rows.foldl (fun tx => stripAttention tx identity) tx).attention.get slot = some row) :
    row.entry = none ∨ tx.attention.get slot = some row ∧
      ((slot, row) ∈ rows → row.messageRef ≠ identity ∨ row.expired = true) := by
  induction rows generalizing tx with
  | nil => exact .inr ⟨h, fun hmem => absurd hmem not_mem_nil⟩
  | cons first rest ih =>
    rw [foldl_cons] at h
    rcases ih h with hnone | ⟨hrow, hrest⟩
    · exact .inl hnone
    · by_cases hspared : first.2.messageRef ≠ identity ∨ first.2.expired = true
      · have hsame : stripAttention tx identity first = tx := by
          unfold stripAttention
          rw [if_pos (by simpa using hspared)]
        rw [hsame] at hrow
        refine .inr ⟨hrow, ?_⟩
        intro hmem
        rcases mem_cons.mp hmem with rfl | hmem
        · exact hspared
        · exact hrest hmem
      · have hput : (stripAttention tx identity first).attention =
            tx.attention.put first.1 { first.2 with entry := none, expired := true } := by
          unfold stripAttention updateInbox
          rw [if_neg (by simpa using hspared)]
          dsimp only
          split <;> rfl
        rw [hput] at hrow
        rcases get_put_cases hrow with ⟨-, rfl⟩ | ⟨hne, hold⟩
        · exact .inl rfl
        · refine .inr ⟨hold, ?_⟩
          intro hmem
          rcases mem_cons.mp hmem with rfl | hmem
          · exact absurd rfl hne
          · exact hrest hmem

theorem expireRow_vouched {beforeSeq : String} {now : Int} {tx' : Store D}
    {expiring : (ThreadRef × Nat) × Entry} (hstor : tx.entry.get expiring.1 = some expiring.2)
    (hvouch : ∀ slot row, tx.attention.get slot = some row → Vouched tx.entry slot.1 row)
    (h : expireRow ctx beforeSeq now tx expiring = .ok tx') :
    ∀ slot row, tx'.attention.get slot = some row → Vouched tx'.entry slot.1 row := by
  rcases expireRow_ok h with rfl | ⟨record, -, rfl⟩
  · exact hvouch
  · intro slot row hrow
    rw [foldl_stripAttention_entry]
    rcases foldl_stripAttention_get hrow with hnone | ⟨hold, hspared⟩
    · exact .of_stripped hnone
    · obtain ⟨hexp, hcopy⟩ := hvouch slot row hold
      refine ⟨hexp, ?_⟩
      intro entry hrowEntry
      obtain ⟨hmsg, hslot⟩ := hcopy entry hrowEntry
      refine ⟨hmsg, ?_⟩
      -- A copy of the expiring entry is among the rows that are stripped.
      have hne : (slot.1, entry.seq) ≠ expiring.1 := by
        intro heq
        rw [heq] at hslot
        cases hstor.symm.trans hslot
        have hmem : (slot, row) ∈ attentionRows tx expiring.1.1 := by
          rw [attentionRows, mem_filter]
          exact ⟨mem_rows.mpr hold, by simp [← heq]⟩
        rcases hspared hmem with hoth | hstripped
        · exact hoth hmsg
        · rw [hexp hstripped] at hrowEntry
          cases hrowEntry
      exact (get_delete_ne _ hne).trans hslot

/-! ## The obligation list -/

/-- A row that carries an entry after the obligation list was read was there before. -/
theorem foldl_storeShown_get {store : Store D} {actor : NodeId} {ref : ThreadRef} {rows : List Attention}
    (h : (rows.foldl (storeShown tx actor ref) store).attention.get slot = some row) :
    row.entry = none ∨ store.attention.get slot = some row := by
  induction rows generalizing store with
  | nil => exact .inr h
  | cons first rest ih =>
    rcases ih h with hnone | hrow
    · exact .inl hnone
    · unfold storeShown at hrow
      split_ifs at hrow
      · exact .inr hrow
      · rcases get_put_cases hrow with ⟨-, rfl⟩ | ⟨-, hold⟩
        · exact .inl rfl
        · exact .inr hold

end Obligations

section Step

variable {D : Type} [DecidableEq D] {ctx : Context D}

theorem Attested.step {s s' : Store D} {call : Call} (h : Attested s)
    (hstep : step ctx s call = some s') : Attested s' := by
  rcases admission_or_upkeep hstep with ⟨auth, request, input, rfl⟩ | hkeep
  · cases step_effect hstep with
    | kept => exact h
    | remembered => exact ⟨h.threads, h.entries, h.vouched⟩
    | worked digest named => cases named
    | appended message staging => exact h.append message staging
  · apply h.upkeep hkeep
    cases step_effect hstep with
    | kept | remembered | sent => exact h.vouched
    | appended message staging => exact (h.append message staging).vouched
    | expired run =>
      exact expire_induct (P := fun tx => ∀ slot row, tx.attention.get slot = some row → Vouched tx.entry slot.1 row)
        run h.vouched fun _ _ _ _ hstor hrow hvouch => expireRow_vouched hstor hvouch hrow
    | listed run =>
      simp only [attention, bind_eq_ok] at run
      obtain ⟨_, -, _, -, run⟩ := run
      cases run
      intro slot row hrow
      obtain ⟨_, hrows⟩ := foldl_storeShown s _ _ (obligations s _ _) s
      rw [hrows]
      rcases foldl_storeShown_get hrow with hnone | hold
      · exact .of_stripped hnone
      · exact h.vouched slot row hold
    | worked digest named free works =>
      cases works with
      | create run =>
        obtain ⟨_, _, rfl⟩ := createWork_rows run
        exact h.vouched
      | close run =>
        obtain ⟨_, _, rfl⟩ := closeWork_rows run
        exact h.vouched
      | member caller run =>
        obtain ⟨_, _, _, _, -, -, rfl⟩ := memberWork_rows run
        exact h.vouched
      | permits positive run =>
        rw [permitsWork_rows run]
        exact h.vouched
      | ackGrant run =>
        rcases ackGrantWork_rows run with rfl | ⟨grant, -, rfl⟩ <;> exact h.vouched
      | ack run =>
        obtain ⟨row, _, hrow, rfl⟩ := ackWork_rows run
        intro slot row' hrow'
        rcases get_put_cases hrow' with ⟨rfl, rfl⟩ | ⟨-, hold⟩
        · obtain ⟨hexp, hstor⟩ := h.vouched _ row hrow
          exact ⟨hexp, hstor⟩
        · exact h.vouched slot row' hold

theorem attested_of_run {h : List (Transition (Store D) Call)} {s : Store D}
    (hrun : Run (Messages.step ctx) {} h s) : Attested s :=
  hrun.invariant attested_empty fun _ _ _ hI hstep => hI.step hstep

/-- **No copy outlives its entry.**  In every state a node reaches, an obligation that still carries a copy of an
entry is not expired, and the copy is the entry stored in its thread under a number that was given out: once an
entry has expired, or its number was never used, no obligation shows it. -/
theorem copies_stored {h : List (Transition (Store D) Call)} {s : Store D} (hrun : Run (Messages.step ctx) {} h s)
    {slot : ThreadRef × String} {row : Attention} {entry : Entry} (hrow : s.attention.get slot = some row)
    (hcopy : row.entry = some entry) : row.expired = false ∧ row.messageRef = entry.message.ref ∧
      s.entry.get (slot.1, entry.seq) = some entry ∧ entry.seq < nextSeq s.log slot.1 := by
  have hatt := attested_of_run hrun
  obtain ⟨hexp, hstored⟩ := hatt.vouched slot row hrow
  obtain ⟨href, hent⟩ := hstored entry hcopy
  refine ⟨Bool.eq_false_iff.mpr fun hgone => ?_, href, hent, (hatt.entries _ entry hent).2⟩
  cases (hexp hgone).symm.trans hcopy

open Scenario in
/-- The obligation of a first contact carries the entry that is stored. -/
theorem copies_stored_contact : ∃ h s, Run (step context) {} h s ∧ ∃ slot row entry,
    s.attention.get slot = some row ∧ row.entry = some entry ∧ s.entry.get (slot.1, entry.seq) = some entry := by
  obtain ⟨h, s, hrun, hp⟩ := exists_run (step context) {} [sends "k1" (message "m1" "hello")]
    (fun _ s => ∃ row ∈ s.attention.rows, row.2.entry ≠ none) (by decide +kernel)
  obtain ⟨⟨slot, row⟩, hmem, hcopy⟩ := hp
  obtain ⟨entry, hent⟩ := Option.ne_none_iff_exists'.mp hcopy
  have hrow := mem_rows.mp hmem
  exact ⟨h, s, hrun, slot, row, entry, hrow, hent, (copies_stored hrun hrow hent).2.2.1⟩

end Step

end Onlyne.Messages
