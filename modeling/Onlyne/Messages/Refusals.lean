import Onlyne.Messages.Changes

/-!
# Messages: a refusal has no effect

An admission that is refused may touch the record of its own identity and nothing else: it records
the refusal, or drops a recorded one that named a condition of the store.  The first half of this
file is that frame.  The second half is what it is for: no sequence of calls that leaves the refused
identity alone can tell the store from the one the call was made on.
-/

namespace Onlyne.Messages

open Foundation Table List

section Frame

variable {D : Type}

/-- Two stores that agree on everything but the record of `identity`. -/
structure AgreeBut (identity : MessageRef) (s s' : Store D) : Prop where
  rows : s' = s.withMessage s'.message
  records : ∀ m, m ≠ identity → s'.message.get m = s.message.get m

theorem AgreeBut.refl (identity : MessageRef) (s : Store D) : AgreeBut identity s s where
  rows := rfl
  records _ _ := rfl

/-- Nothing was decided about the identity of a request: it has no record, or a refusal of the same
content that named a condition of the store. -/
def Undecided (ctx : Context D) (request : SendRequest) (record : Option (Remembered D)) : Prop :=
  ∀ old, record = some old → old.digest = contentDigest ctx request ∧
    ∃ former, old.verdict = .refused former ∧ transientRefusal former.code = true

/-- What a refusal of an undecided identity leaves of its record: the refusal when it is recordable,
and otherwise no record, the former refusal being dropped. -/
def ownRecord (ctx : Context D) (request : SendRequest) (failure : Failure) : Option (Remembered D) :=
  if recordedRefusal failure.code then
    some ⟨contentDigest ctx request, .refused failure, request.retryUntil⟩
  else none

/-- The refusal of `request` with `failure` touches the record of its undecided identity only. -/
structure RecordOnly (ctx : Context D) (request : SendRequest) (failure : Failure)
    (s s' : Store D) : Prop extends AgreeBut request.message.ref s s' where
  undecided : Undecided ctx request (s.message.get request.message.ref)
  own : s'.message.get request.message.ref = ownRecord ctx request failure

theorem decideAdmission_refused {ctx : Context D} {tx tx' : Store D} {auth : Auth}
    {request : SendRequest} {input : AdmitInput} {supported : Bool} {failure : Failure}
    (hsafe : ∀ failure, input.traceReceived ≠ .error (.onlyne failure))
    (h : decideAdmission ctx tx auth request input supported = .ok (.error failure, tx')) :
    tx' = refuse tx request.message.ref (contentDigest ctx request) request.retryUntil failure := by
  unfold decideAdmission at h
  split_ifs at h
  · cases h
    rfl
  · split at h
    · cases h
    · cases h
      rfl
    · cases h
    · split at h
      · cases h
      · next happ => exact absurd (append_error happ) (hsafe _)
      · cases h

theorem refuse_agreeBut (tx : Store D) (identity : MessageRef) (digest : D) (retryUntil : String)
    (failure : Failure) : AgreeBut identity tx (refuse tx identity digest retryUntil failure) := by
  unfold refuse
  split_ifs
  · exact ⟨rfl, fun m hne => get_put_ne _ _ hne⟩
  · exact .refl identity tx

end Frame

section Refusal

variable {D : Type} [DecidableEq D] {request : SendRequest} {ctx : Context D}

omit [DecidableEq D] in
/-- Refusing an undecided identity, with its record dropped, touches that record only. -/
theorem refuse_recordOnly {tx : Store D} (message : Table MessageRef (Remembered D)) (failure : Failure)
    (hundecided : Undecided ctx request (tx.message.get request.message.ref))
    (hdrop : message.get request.message.ref = none)
    (hoth : ∀ m, m ≠ request.message.ref → message.get m = tx.message.get m) :
    RecordOnly ctx request failure tx (refuse (tx.withMessage message) request.message.ref
      (contentDigest ctx request) request.retryUntil failure) := by
  have hagr := refuse_agreeBut (tx.withMessage message) request.message.ref
    (contentDigest ctx request) request.retryUntil failure
  refine ⟨⟨hagr.rows, ?_⟩, hundecided, ?_⟩
  · intro m hne
    rw [hagr.records m hne]
    exact hoth m hne
  · unfold refuse ownRecord
    split_ifs
    · exact get_put_self ..
    · exact hdrop

/-- A refusing transaction leaves the rows alone, or touches the record of its identity only. -/
theorem admitTx_refused {tx tx' : Store D} {auth : Auth} {input : AdmitInput} {supported : Bool} {failure : Failure}
    (hsafe : ∀ failure, input.traceReceived ≠ .error (.onlyne failure))
    (h : admitTx ctx tx auth request input supported = .ok (.error failure, tx')) :
    tx' = tx ∨ RecordOnly ctx request failure tx tx' := by
  unfold admitTx at h
  dsimp only at h
  split_ifs at h
  · cases h
  · split at h
    · next hfr =>
      right
      rw [decideAdmission_refused hsafe h]
      apply refuse_recordOnly tx.message failure
      · intro old hold
        rw [hfr] at hold
        cases hold
      · exact hfr
      · exact fun _ _ => rfl
    · next old hrec =>
      split at h
      · cases h
      · split_ifs at h with hcont
        · cases h
          exact .inl rfl
        · rw [not_not] at hcont
          split at h
          · cases h
          · cases h
            exact .inl rfl
          · next former hverd =>
            split_ifs at h with htransient
            · -- The transient record is dropped before the request is decided afresh.
              right
              rw [decideAdmission_refused hsafe h]
              apply refuse_recordOnly
              · intro old' hold
                rw [hrec] at hold
                cases hold
                exact ⟨hcont, former, hverd, htransient⟩
              · exact get_delete_self ..
              · exact fun m hne => get_delete_ne _ hne
            · cases h
              exact .inl rfl

/-- The call ends in a refusal: no receipt was given out by its transaction. -/
def refuses (ctx : Context D) (store : Store D) (auth : Auth) (request : SendRequest) (input : AdmitInput) : Bool :=
  match admitChecks ctx auth request, input.supports with
  | .ok _, .ok supported =>
    !(admitTx ctx store auth request input supported matches .ok (.ok _, _))
  | _, _ => true

end Refusal

/-! ## The other calls do not see the record -/

section Blind

variable {D : Type} {message records : Table MessageRef (Remembered D)}

/-- The outcome of a transaction on a store with the records `message` is the outcome on the one with
`records`, and neither has touched them. -/
structure Blind {α : Type} (message records : Table MessageRef (Remembered D))
    (outcome' outcome : Except Halt (α × Store D)) : Prop where
  same : outcome' = outcome.map fun r => (r.1, r.2.withMessage message)
  kept : ∀ r, outcome = .ok r → r.2.message = records

theorem Blind.error {α : Type} (halt : Halt) : Blind (α := α) message records (.error halt) (.error halt) where
  same := rfl
  kept r hr := by cases hr

theorem Blind.ok {α : Type} {a : α} {tx tx' : Store D} (hrows : tx' = tx.withMessage message)
    (hkept : tx.message = records) : Blind message records (.ok (a, tx')) (.ok (a, tx)) where
  same := by
    rw [hrows]
    rfl
  kept r hr := by
    cases hr
    exact hkept

theorem Blind.bind {α β : Type} {first : Except Halt β} {rest' rest : β → Except Halt (α × Store D)}
    (h : ∀ b, Blind message records (rest' b) (rest b)) : Blind message records (first >>= rest') (first >>= rest) := by
  cases first with
  | error halt => exact .error halt
  | ok b => exact h b

variable (ctx : Context D) (auth : Auth) (ref : ThreadRef)

theorem updateInbox_withMessage (tx : Store D) (obligationId : String) (attention : Attention) :
    updateInbox (tx.withMessage message) obligationId attention =
      (updateInbox tx obligationId attention).withMessage message := by
  unfold updateInbox
  dsimp only [Store.withMessage]
  split <;> rfl

theorem ackWork_blind (id : String) (tx : Store D) :
    Blind message tx.message (ackWork ctx auth ref id (tx.withMessage message)) (ackWork ctx auth ref id tx) := by
  apply Blind.bind
  intro thread
  apply Blind.bind
  intro attention
  apply Blind.bind
  intro _
  let acked := { attention with acked := true }
  refine .ok ?_ ?_
  · exact updateInbox_withMessage { tx with attention := tx.attention.put (ref, id) acked } id acked
  · unfold updateInbox
    split <;> rfl

theorem foldl_storeShown_withMessage (actor : NodeId) (ref : ThreadRef) (tx store : Store D) (rows : List Attention) :
    rows.foldl (storeShown (tx.withMessage message) actor ref) (store.withMessage message) =
      (rows.foldl (storeShown tx actor ref) store).withMessage message := by
  induction rows generalizing store with
  | nil => rfl
  | cons row rest ih =>
    have hrow : storeShown (tx.withMessage message) actor ref (store.withMessage message) row =
        (storeShown tx actor ref store row).withMessage message := by
      have hintact : intact (tx.withMessage message) actor ref row = intact tx actor ref row := rfl
      unfold storeShown
      rw [hintact]
      split_ifs <;> rfl
    rw [foldl_cons, foldl_cons, hrow, ih]

theorem attention_blind (options : PageOptions Scope) (tx : Store D) :
    Blind message tx.message (attention ctx (tx.withMessage message) auth ref options)
      (attention ctx tx auth ref options) := by
  apply Blind.bind
  intro _
  apply Blind.bind
  intro _
  refine Blind.ok (foldl_storeShown_withMessage auth.actor ref tx tx _) ?_
  obtain ⟨_, hrows⟩ := foldl_storeShown tx auth.actor ref (obligations tx auth.actor ref) tx
  rw [hrows]

theorem mutate_blind [DecidableEq D] (operation : String) (mutation : Mutation) (body : Body)
    (input : MutateInput) (work : Store D → Except Halt (Result × Store D)) (tx : Store D)
    (hwork : Blind message tx.message (work (tx.withMessage message)) (work tx)) : Blind message tx.message
      (mutate ctx (tx.withMessage message) auth operation mutation body input work)
      (mutate ctx tx auth operation mutation body input work) := by
  apply Blind.bind
  intro _
  apply Blind.bind
  intro _
  dsimp only [Store.withMessage]
  split
  · apply Blind.bind
    intro _
    exact .ok rfl rfl
  · apply Blind.bind
    intro _
    obtain ⟨hsame, hkept⟩ := hwork
    rw [hsame]
    cases hrun : work tx with
    | error halt => exact .error halt
    | ok r => exact .ok rfl (hkept r hrun)

end Blind

/-! ## Nobody else can tell -/

section Alike

variable {D : Type} {identity : MessageRef} {beforeSeq : String}

/-- Two computations that stop alike, or end in related values. -/
inductive Alike {α β : Type} (R : α → β → Prop) : Except Halt α → Except Halt β → Prop where
  | error (halt : Halt) : Alike R (.error halt) (.error halt)
  | ok {a b} (related : R a b) : Alike R (.ok a) (.ok b)

theorem Alike.bind {α β γ δ : Type} {R : α → β → Prop} {S : γ → δ → Prop} {x : Except Halt α}
    {y : Except Halt β} {f : α → Except Halt γ} {g : β → Except Halt δ} (h : Alike R x y)
    (hrest : ∀ a b, R a b → Alike S (f a) (g b)) : Alike S (x >>= f) (y >>= g) := by
  cases h with
  | error halt => exact .error halt
  | ok related => exact hrest _ _ related

theorem Alike.after {α γ δ : Type} {S : γ → δ → Prop} {x : Except Halt α} {f : α → Except Halt γ}
    {g : α → Except Halt δ} (h : ∀ a, Alike S (f a) (g a)) : Alike S (x >>= f) (x >>= g) := by
  cases x with
  | error halt => exact .error halt
  | ok a => exact h a

/-- Results that differ in the record of `identity` at most. -/
def SameBut {α : Type} (identity : MessageRef) (r r' : α × Store D) : Prop :=
  r.1 = r'.1 ∧ AgreeBut identity r.2 r'.2

variable {tx tx' : Store D}

theorem Blind.alike {α : Type} {outcome' outcome : Except Halt (α × Store D)}
    (h : Blind tx'.message tx.message outcome' outcome) (hagr : AgreeBut identity tx tx') :
    Alike (SameBut identity) outcome outcome' := by
  rw [h.same]
  cases hout : outcome with
  | error halt => exact .error halt
  | ok r =>
    refine .ok ⟨rfl, rfl, ?_⟩
    intro m hne
    rw [h.kept r hout]
    exact hagr.records m hne

/-! ### Expiry -/

theorem stripAttention_withMessage (tx : Store D) (message : Table MessageRef (Remembered D))
    (m : MessageRef) (row : (ThreadRef × String) × Attention) :
    stripAttention (tx.withMessage message) m row = (stripAttention tx m row).withMessage message := by
  unfold stripAttention
  split_ifs
  · rfl
  · exact updateInbox_withMessage { tx with
      attention := tx.attention.put row.1 { row.2 with entry := none, expired := true } } ..

theorem foldl_stripAttention_withMessage (message : Table MessageRef (Remembered D)) (m : MessageRef)
    (rows : List ((ThreadRef × String) × Attention)) (tx : Store D) :
    rows.foldl (fun tx => stripAttention tx m) (tx.withMessage message) =
      (rows.foldl (fun tx => stripAttention tx m) tx).withMessage message := by
  induction rows generalizing tx with
  | nil => rfl
  | cons row rest ih => rw [foldl_cons, foldl_cons, stripAttention_withMessage, ih]

theorem foldl_stripAttention_agreeBut (hagr : AgreeBut identity tx tx') (m : MessageRef)
    (rows : List ((ThreadRef × String) × Attention)) : AgreeBut identity (rows.foldl (fun tx => stripAttention tx m) tx)
      (rows.foldl (fun tx => stripAttention tx m) tx') := by
  have hmsg (tx : Store D) : (rows.foldl (fun tx => stripAttention tx m) tx).message =
      tx.message := congrArg Log.message (foldl_stripAttention_log m rows tx)
  refine ⟨?_, ?_⟩
  · rw [hmsg, ← foldl_stripAttention_withMessage, ← hagr.rows]
  · intro m' hne
    rw [hmsg, hmsg]
    exact hagr.records m' hne

theorem bury_agreeBut (hagr : AgreeBut identity tx tx') (slot : ThreadRef × Nat) (m : MessageRef)
    (tomb : Remembered D) : AgreeBut identity { tx with
        message := tx.message.put m tomb
        entry := tx.entry.delete slot
        entryRef := tx.entryRef.delete m }
      { tx' with
        message := tx'.message.put m tomb
        entry := tx'.entry.delete slot
        entryRef := tx'.entryRef.delete m } := by
  obtain ⟨hrows, hrecs⟩ := hagr
  refine ⟨?_, ?_⟩
  · rw [hrows]
  · intro m' hne
    rw [get_put, get_put, hrecs m' hne]

/-- Expiring an entry of another identity reads and writes the same record in both stores. -/
theorem expireRow_alike {ctx : Context D} {now : Int} {row : (ThreadRef × Nat) × Entry}
    (hrow : row.2.message.ref ≠ identity) (hagr : AgreeBut identity tx tx') :
    Alike (AgreeBut identity) (expireRow ctx beforeSeq now tx row) (expireRow ctx beforeSeq now tx' row) := by
  have hscan : attentionRows tx' row.1.1 = attentionRows tx row.1.1 := by
    rw [hagr.rows]
    rfl
  apply Alike.after
  intro before
  dsimp only
  split_ifs
  · exact .ok hagr
  · rw [hagr.records _ hrow]
    apply Alike.after
    intro record
    apply Alike.after
    intro _
    apply Alike.ok
    have hburied := bury_agreeBut hagr row.1 row.2.message.ref ⟨record.digest, .tombstone, record.retryUntil⟩
    have hstripped := foldl_stripAttention_agreeBut hburied row.2.message.ref (attentionRows tx row.1.1)
    unfold attentionRows at hscan hstripped ⊢
    rw [← hscan] at hstripped ⊢
    exact hstripped

theorem foldlM_expireRow_alike {ctx : Context D} {now : Nat → Int}
    {rows : List ((ThreadRef × Nat) × Entry)} (hagr : AgreeBut identity tx tx')
    (hrows : ∀ row ∈ rows, row.2.message.ref ≠ identity) : Alike (AgreeBut identity)
      (rows.foldlM (fun tx row => expireRow ctx beforeSeq (now row.1.2) tx row) tx)
      (rows.foldlM (fun tx row => expireRow ctx beforeSeq (now row.1.2) tx row) tx') := by
  induction rows generalizing tx tx' with
  | nil => exact .ok hagr
  | cons row rest ih =>
    apply Alike.bind (expireRow_alike (hrows row mem_cons_self) hagr)
    intro tx₁ tx₁' hnext
    exact ih hnext fun row' hmem => hrows row' (mem_cons_of_mem _ hmem)

variable (ctx : Context D)

theorem expire_alike (auth : Auth) (ref : ThreadRef) (beforeSeq : String) (now : Nat → Int) {s s' : Store D}
    (hagr : AgreeBut identity s s')
    (hentries : ∀ slot entry, s.entry.get slot = some entry → entry.message.ref ≠ identity) :
    Alike (AgreeBut identity) (expire ctx s auth ref beforeSeq now) (expire ctx s' auth ref beforeSeq now) := by
  have hscan : entryRows s' ref = entryRows s ref := by
    rw [hagr.rows]
    rfl
  have hthr : loadThread ctx s' ref = loadThread ctx s ref := by
    rw [hagr.rows]
    rfl
  have hrows : ∀ row ∈ entryRows s ref, row.2.message.ref ≠ identity := by
    rintro ⟨slot, entry⟩ hmem
    exact hentries slot entry (mem_rows.mp (mem_filter.mp hmem).1)
  unfold expire expireTx
  apply Alike.after
  intro _
  apply Alike.after
  intro _
  rw [hthr, hscan]
  apply Alike.after
  intro _
  exact foldlM_expireRow_alike hagr hrows

/-! ### Admissions of other messages -/

section

variable (hagr : AgreeBut identity tx tx')
include hagr

theorem refuse_agree (m : MessageRef) (digest : D) (retryUntil : String) (failure : Failure) :
    AgreeBut identity (refuse tx m digest retryUntil failure) (refuse tx' m digest retryUntil failure) := by
  unfold refuse
  split_ifs
  · obtain ⟨hrows, hrecs⟩ := hagr
    refine ⟨?_, ?_⟩
    · rw [hrows]
    · intro m' hne
      rw [get_put, get_put, hrecs m' hne]
  · exact hagr

section

variable (auth : Auth) (request : SendRequest) (input : AdmitInput)
include auth request input

theorem append_agree (digest requestDigest : D) (staged : Staged) :
    (append ctx tx' auth request input digest requestDigest staged).1 =
        (append ctx tx auth request input digest requestDigest staged).1 ∧
      AgreeBut identity (append ctx tx auth request input digest requestDigest staged).2
        (append ctx tx' auth request input digest requestDigest staged).2 := by
  have hboth := append_withMessage ctx tx tx'.message auth request input digest requestDigest staged
  rw [← hagr.rows] at hboth
  refine ⟨?_, ?_, ?_⟩
  · rw [hboth]
  · rw [append_message, hboth]
  · intro m hne
    rw [append_message, append_message, get_put, get_put, hagr.records m hne]

theorem decideAdmission_alike (supported : Bool) :
    Alike (SameBut identity) (decideAdmission ctx tx auth request input supported)
      (decideAdmission ctx tx' auth request input supported) := by
  have hstg : stage ctx tx' request.message input = stage ctx tx request.message input := by
    rw [hagr.rows]
    exact stage_withMessage ..
  have hrfs (failure : Failure) {rows rows' : Store D} (hrows : AgreeBut identity rows rows') :
      Alike (SameBut identity) (.ok (Except.error (α := Receipt) failure, refuse rows request.message.ref
          (contentDigest ctx request) request.retryUntil failure))
        (.ok (Except.error (α := Receipt) failure, refuse rows' request.message.ref
          (contentDigest ctx request) request.retryUntil failure)) :=
    .ok ⟨rfl, refuse_agree hrows ..⟩
  unfold decideAdmission
  rw [hstg]
  split_ifs
  · exact hrfs _ hagr
  · split
    · exact .error _
    · exact hrfs _ hagr
    · exact .error _
    · next staged hstaged =>
      have hboth := append_agree ctx hagr auth request input
        (contentDigest ctx request) (requestDigest ctx request) staged
      cases happ : append ctx tx auth request input (contentDigest ctx request) (requestDigest ctx request) staged with
      | mk outcome rows =>
        cases happ' : append ctx tx' auth request input (contentDigest ctx request)
            (requestDigest ctx request) staged with
        | mk outcome' rows' =>
          rw [happ, happ'] at hboth
          obtain ⟨hfst, hrows⟩ := hboth
          subst hfst
          cases outcome' with
          | ok => exact .ok ⟨rfl, hrows⟩
          | error thrown =>
            cases thrown with
            | onlyne => exact hrfs _ hrows
            | other => exact .error _

end

end

end Alike

section Call

variable {D : Type} [DecidableEq D] {identity : MessageRef} {request : SendRequest} {call : Call}

theorem admitTx_alike (ctx : Context D) {tx tx' : Store D} (hagr : AgreeBut identity tx tx')
    (auth : Auth) (input : AdmitInput) (supported : Bool) (hoth : request.message.ref ≠ identity) :
    Alike (SameBut identity) (admitTx ctx tx auth request input supported)
      (admitTx ctx tx' auth request input supported) := by
  have hbd : boundElsewhere ctx tx' auth request = boundElsewhere ctx tx auth request := by
    rw [hagr.rows]
    rfl
  have hdrop : AgreeBut identity { tx with message := tx.message.delete request.message.ref }
      { tx' with message := tx'.message.delete request.message.ref } := by
    refine ⟨?_, ?_⟩
    · rw [hagr.rows]
    · intro m hne
      rw [get_delete, get_delete, hagr.records m hne]
  unfold admitTx
  rw [hbd]
  dsimp only
  rw [hagr.records _ hoth]
  split_ifs
  · exact .error _
  · split
    · exact decideAdmission_alike ctx hagr ..
    · split
      · exact .error _
      · split_ifs
        · exact .ok ⟨rfl, hagr⟩
        · split
          · refine .ok ⟨rfl, ?_, ?_⟩
            · rw [hagr.rows]
              unfold bindKey
              dsimp only
              split <;> rfl
            · intro m hne
              have hmsg (tx : Store D) : (bindKey ctx tx auth request).message = tx.message :=
                congrArg Log.message (bindKey_log ..)
              rw [hmsg, hmsg]
              exact hagr.records m hne
          · exact .ok ⟨rfl, hagr⟩
          · split_ifs
            · exact decideAdmission_alike ctx hdrop ..
            · exact .ok ⟨rfl, hagr⟩

/-- The call does not admit the message `identity`. -/
def leavesAlone (identity : MessageRef) : Call → Bool
  | .admitRequest _ request _ => request.message.ref ≠ identity
  | _ => true

/-- No entry of the message `identity` is stored. -/
def Unfiled (identity : MessageRef) (store : Store D) : Prop :=
  ∀ slot entry, store.entry.get slot = some entry → entry.message.ref ≠ identity

variable {s s' : Store D} {ctx : Context D}

omit [DecidableEq D] in
theorem transaction_alike {α : Type} {answer : α → Answer} {outcome outcome' : Except Halt (α × Store D)}
    (hagr : AgreeBut identity s s') (h : Alike (SameBut identity) outcome outcome') :
    Option.Rel (SameBut identity) (transaction s answer outcome) (transaction s' answer outcome') := by
  cases h with
  | error halt =>
    cases halt with
    | threw => exact .some ⟨rfl, hagr⟩
    | looping => exact .none
  | ok related =>
    obtain ⟨hval, hrows⟩ := related
    exact .some ⟨by rw [hval], hrows⟩

theorem mutate_alike {auth : Auth} {operation : String} {mutation : Mutation} {body : Body}
    {input : MutateInput} {work : Store D → Except Halt (Result × Store D)} (hagr : AgreeBut identity s s')
    (hwork : ∀ message tx, Blind message tx.message (work (tx.withMessage message)) (work tx)) :
    Alike (SameBut identity) (mutate ctx s auth operation mutation body input work)
      (mutate ctx s' auth operation mutation body input work) := by
  have hblind := mutate_blind ctx auth operation mutation body input work s (hwork s'.message s)
  rw [← hagr.rows] at hblind
  exact hblind.alike hagr

theorem admit_alike (ctx : Context D) (hagr : AgreeBut identity s s') (auth : Auth)
    (input : AdmitInput) (hoth : request.message.ref ≠ identity) :
    Option.Rel (SameBut identity) (admitRequest ctx s auth request input) (admitRequest ctx s' auth request input) := by
  unfold admitRequest
  split
  · exact .some ⟨rfl, hagr⟩
  · exact .some ⟨rfl, hagr⟩
  · next supported _ _ =>
    have htx := admitTx_alike ctx hagr auth input supported hoth
    generalize admitTx ctx s auth request input supported = outcome at htx ⊢
    generalize admitTx ctx s' auth request input supported = outcome' at htx ⊢
    cases htx with
    | error halt =>
      cases halt with
      | threw => exact .some ⟨rfl, hagr⟩
      | looping => exact .none
    | @ok r r' related =>
      obtain ⟨verdict, rows⟩ := r
      obtain ⟨verdict', rows'⟩ := r'
      obtain ⟨hverd, hrows⟩ := related
      subst hverd
      cases verdict with
      | error => exact .some ⟨rfl, hrows⟩
      | ok =>
        -- What the notifications throw is thrown in both.
        dsimp only
        split <;> exact .some ⟨rfl, hrows⟩

theorem perform_alike (hagr : AgreeBut identity s s') (hunf : Unfiled identity s)
    (hcall : leavesAlone identity call = true) :
    Option.Rel (SameBut identity) (perform ctx s call) (perform ctx s' call) := by
  cases call with
  | admitRequest auth request input =>
    have hoth : request.message.ref ≠ identity := by simpa [leavesAlone] using hcall
    have hadm := admit_alike ctx hagr auth input hoth
    show Option.Rel _ (Option.map _ _) (Option.map _ _)
    generalize Messages.admitRequest ctx s auth request input = outcome at hadm ⊢
    generalize Messages.admitRequest ctx s' auth request input = outcome' at hadm ⊢
    cases hadm with
    | none => exact .none
    | some related =>
      obtain ⟨hans, hrows⟩ := related
      exact .some ⟨congrArg (Except.map Answer.receipt) hans, hrows⟩
  | create | close | member | permits | ackGrant =>
    apply transaction_alike hagr
    simp only [create, close, member, permits, ackGrant]
    -- The checks before the work read no row, and the work reads no record.
    repeat (with_reducible apply Alike.after; intro _)
    refine mutate_alike hagr fun message tx => ?_
    simp only [createWork, closeWork, memberWork, permitsWork, ackGrantWork, Store.withMessage]
    repeat' first
      | exact .ok rfl rfl
      | (apply Blind.bind; intro _)
      | split
  | ack =>
    apply transaction_alike hagr
    exact mutate_alike hagr fun _ tx => ackWork_blind ..
  | attention auth ref options =>
    apply transaction_alike hagr
    have hblind : Blind s'.message s.message (attention ctx (s.withMessage s'.message) auth ref options)
        (attention ctx s auth ref options) := attention_blind ctx auth ref options s
    rw [← hagr.rows] at hblind
    exact hblind.alike hagr
  | expire auth ref beforeSeq now =>
    apply transaction_alike hagr
    have hexp := expire_alike ctx auth ref beforeSeq now hagr hunf
    generalize Messages.expire ctx s auth ref beforeSeq now = outcome at hexp ⊢
    generalize Messages.expire ctx s' auth ref beforeSeq now = outcome' at hexp ⊢
    cases hexp with
    | error halt => exact .error halt
    | ok related => exact .ok ⟨rfl, related⟩
  | outbound =>
    refine .some ⟨rfl, ?_, hagr.records⟩
    rw [hagr.rows]

theorem Unfiled.perform {answer : Except Thrown Answer} (hunf : Unfiled identity s)
    (hcall : leavesAlone identity call = true) (h : perform ctx s call = some (answer, s')) : Unfiled identity s' := by
  have hstep : step ctx s call = some s' := by
    unfold step
    rw [h]
    rfl
  intro slot entry hrow
  rcases step_entry hstep hrow with hold | ⟨auth, request, input, rfl, hmsg⟩
  · exact hunf slot entry hold
  · rw [hmsg]
    simpa [leavesAlone] using hcall

theorem converse_alike (hagr : AgreeBut identity s s') (hunf : Unfiled identity s) {calls : List Call}
    (hcalls : ∀ call ∈ calls, leavesAlone identity call = true) :
    converse (perform ctx) s' calls = converse (perform ctx) s calls := by
  symm
  refine converse_eq_of_simulation (R := fun s s' => AgreeBut identity s s' ∧ Unfiled identity s)
    (C := fun call => leavesAlone identity call = true) ?_ hcalls ⟨hagr, hunf⟩
  rintro s s' call hcall ⟨hagr, hunf⟩
  have hboth : Option.Rel (SameBut identity) (perform ctx s call) (perform ctx s' call) := perform_alike hagr hunf hcall
  cases hs : perform ctx s call with
  | none =>
    rw [hs] at hboth
    cases hs' : perform ctx s' call with
    | none => exact .none
    | some =>
      rw [hs'] at hboth
      cases hboth
  | some =>
    rw [hs] at hboth
    cases hs' : perform ctx s' call with
    | none =>
      rw [hs'] at hboth
      cases hboth
    | some =>
      rw [hs'] at hboth
      obtain ⟨hans, hrows⟩ := Option.rel_some_some.mp hboth
      exact .some ⟨hans, hrows, hunf.perform hcall hs⟩

end Call

/-! ## Refusals -/

section Refusal

variable {D : Type} [DecidableEq D]

def Receipted (store : Store D) : Prop :=
  ∀ slot entry, store.entry.get slot = some entry → ∃ record receipt,
    store.message.get entry.message.ref = some record ∧ record.verdict = .admitted receipt

omit [DecidableEq D] in
theorem Undecided.unfiled {ctx : Context D} {request : SendRequest} {s : Store D}
    (h : Undecided ctx request (s.message.get request.message.ref)) (hreceipted : Receipted s) :
    Unfiled request.message.ref s := by
  intro slot entry hrow hsame
  obtain ⟨record, receipt, hrec, hverd⟩ := hreceipted slot entry hrow
  rw [hsame] at hrec
  obtain ⟨-, former, hrfs, -⟩ := h record hrec
  rw [hverd] at hrfs
  cases hrfs

end Refusal

namespace Scenario

def unable : AdmitInput := { welcoming with supports := .ok false }

def closedDoor : AdmitInput := { welcoming with inboundThread := none }

/-- The first message of `b`. -/
def greeting : SendRequest := request "k" (message "m" "hello")

def refusedBefore : Store Digested where
  message := (∅ : Table MessageRef (Remembered Digested)).put greeting.message.ref
    ⟨contentDigest context greeting,
      .refused (onlyneError .notFound "No default thread is configured."), greeting.retryUntil⟩

end Scenario

end Onlyne.Messages
