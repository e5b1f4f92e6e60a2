import Onlyne.Client.Injections

/-!
# Client: the rows of an owner

A row of the inbox is stored under the obligation id that its owner chose, and a reconciliation writes rows by the
id an owner lists.  Evidence is checked against the owner it came from, the row it is merged into is not: while no
two owners use one id, a reconciliation with an owner writes rows of that owner only.
-/

namespace Onlyne.Client

open Foundation List Option
open Messages (Message MessageRef ThreadRef Entry Attention)

def LocalAttention.owner (row : LocalAttention) : NodeId := row.attention.threadRef.owner

def Task.reconciles : Task → Option ThreadRef
  | .work _ (.items _ _ pull) | .pulling pull _ | .items _ _ pull | .clearing pull | .reporting pull _ =>
    some pull.ref
  | _ => none

/-- Whatever a call that reconciles with an owner creates or changes is a row of that owner. -/
def OwnRowsOnly (t : Transition OnlyneClient Act) : Prop :=
  ∀ call input task ref, t.act = .advance call input → t.before.calls.get call = some task →
    task.reconciles = some ref → ∀ id, t.after.rows.inbox.get id ≠ t.before.rows.inbox.get id →
      (∀ row, t.before.rows.inbox.get id = some row → row.owner = ref.owner) ∧
      ∀ row, t.after.rows.inbox.get id = some row → row.owner = ref.owner

/-- No two owners use one obligation id: evidence that is accepted under the id of a row is of the owner of the
row, and so is an obligation that the message service of the node replaces. -/
def ownIds (ctx : Context) (t : Transition OnlyneClient Act) : Bool :=
  match t.act with
  | .advance call (.go _ _) =>
    match t.before.calls.get call with
    | some (.work (.storing ref attention) _) =>
      (t.before.rows.inbox.get (obligationIdOf ctx ref attention)).all fun row =>
        !attest ctx attention ref.owner row.attention.entry || row.owner = ref.owner
    | _ => true
  | .revised attention =>
    (t.before.rows.inbox.get attention.obligationId).all fun row => row.owner = attention.threadRef.owner
  | _ => true

/-! ## Owners stay -/

section Steps

variable {ctx : Context} {s s' : OnlyneClient} {a : Act} {record row : LocalAttention} {owner : NodeId}
  {after : After}

theorem confirmed_owner (entry : Entry) (context : Option String) (row : LocalAttention) :
    (row.confirmed entry context).owner = row.owner := by
  unfold LocalAttention.owner
  rw [confirmed_attention]

variable {attention : Attention} {ref : ThreadRef} {id : String} {work : Work} {rest : List Attention}
  {cursor : Option String} {pull : Pull} {rows : InboundRows}

theorem owner_of_attest {held : Option Entry}
    (hatt : attest ctx attention owner held = true) : attention.threadRef.owner = owner := by
  simp only [attest, Bool.and_eq_true, decide_eq_true_eq] at hatt
  exact hatt.1.2

theorem owner_of_ownIds {call : Nat} {now : Int} {notify : Option Thrown}
    (hown : ownIds ctx ⟨s, .advance call (.go now notify), s'⟩ = true)
    (htask : s.calls.get call = some (.work (.storing ref attention) after))
    (hrow : s.rows.inbox.get (obligationIdOf ctx ref attention) = some row)
    (hatt : attest ctx attention ref.owner row.attention.entry = true) : row.owner = ref.owner := by
  simpa [ownIds, htask, hrow, hatt] using hown

theorem clientStep_owner (hstep : clientStep ctx s a = some s') (hown : ownIds ctx ⟨s, a, s'⟩ = true)
    (hrow : s.rows.inbox.get id = some row) : ∃ row', s'.rows.inbox.get id = some row' ∧ row'.owner = row.owner := by
  have hact := clientStep_row hstep id
  rw [hrow] at hact
  generalize s'.rows.inbox.get id = row' at hact ⊢
  cases hact with
  | kept => exact ⟨row, rfl, rfl⟩
  | revised attention _ hnamed =>
    subst hnamed
    have howner : row.owner = attention.threadRef.owner := by simpa [ownIds, hrow] using hown
    exact ⟨_, rfl, howner.symm⟩
  | handled htask hwr =>
    cases hwr with
    | kept => exact ⟨row, rfl, rfl⟩
    | acked | checkFailed | settled => exact ⟨_, rfl, rfl⟩
    | confirmed entry context => exact ⟨_, rfl, confirmed_owner entry context row⟩
    | stored ref attention _ hatt =>
      have howner : attention.threadRef.owner = ref.owner := owner_of_attest hatt
      exact ⟨_, rfl, howner.trans (owner_of_ownIds hown htask hrow hatt).symm⟩

/-! ## What a reconciliation carries is of its owner -/

def OwnedBy (rows : InboundRows) (owner : NodeId) (id : String) : Prop :=
  ∃ row, rows.inbox.get id = some row ∧ row.owner = owner

structure WorkOwned (rows : InboundRows) (ref : ThreadRef) (work : Work) : Prop where
  starts : work.starts = true → ∃ attention, work = .storing ref attention
  names : ∀ id ∈ work.names, OwnedBy rows ref.owner id
  entries : ∀ entry ∈ work.entries, entry.threadRef.owner = ref.owner

structure Owned (s : OnlyneClient) : Prop where
  keyed : Keyed s.rows
  sound : Sound s.rows
  works : ∀ call work rest cursor pull, s.calls.get call = some (.work work (.items rest cursor pull)) →
    WorkOwned s.rows pull.ref work

theorem storing_of_bare (hbare : (Task.work work (.items rest cursor pull)).bare = true) :
    ∃ attention, work = .storing pull.ref attention := by
  cases work with
  | storing ref attention => exact ⟨attention, by rw [of_decide_eq_true hbare]⟩
  | _ => cases hbare

theorem storeTx_owner (hown : ∀ row, rows.inbox.get (obligationIdOf ctx ref attention) = some row →
      attest ctx attention ref.owner row.attention.entry = true → row.owner = ref.owner)
    (hstor : (storeTx ctx ref attention rows).1 = some record) : record.owner = ref.owner := by
  simp only [storeTx] at hstor
  split_ifs at hstor with hatt
  · have hprev : rows.inbox.get (obligationIdOf ctx ref attention) = some record := hstor
    rw [hprev] at hatt
    exact hown record hprev hatt
  · cases hstor
    have howner : attention.threadRef.owner = ref.owner := owner_of_attest hatt
    exact howner

theorem OwnedBy.kept (h : OwnedBy s.rows owner id) (hstep : clientStep ctx s a = some s')
    (hown : ownIds ctx ⟨s, a, s'⟩ = true) : OwnedBy s'.rows owner id := by
  obtain ⟨row, hrow, howner⟩ := h
  obtain ⟨row', hrow', hsame⟩ := clientStep_owner hstep hown hrow
  exact ⟨row', hrow', hsame.trans howner⟩

theorem workOwned_of_row (hkey : Keyed rows) (hsnd : Sound rows)
    (hget : rows.inbox.get id = some record) (hown : record.owner = ref.owner) :
    WorkOwned rows ref (.arrived ⟨id, record, none⟩) := by
  refine ⟨fun hst => (by cases hst), fun id' hid => ?_, fun entry hent => ?_⟩
  · have hsame : id' = id := by
      rcases mem_cons.mp hid with hid | hid
      · exact hid
      · rw [mem_singleton.mp hid]
        exact hkey id record hget
    rw [hsame]
    exact ⟨record, hget, hown⟩
  · have hbody : record.attention.entry = some entry := mem_toList.mp hent
    rw [(soundAttention_iff.mp (hsnd id record hget) entry hbody).1]
    exact hown

theorem Owned.kept (h : Owned s) (hstep : clientStep ctx s a = some s') (hown : ownIds ctx ⟨s, a, s'⟩ = true)
    (hact : a.sound = true) : Owned s' := by
  have hkey' := (clientStep_change hstep).inboxKept.keyed h.keyed
  have hsnd' := h.sound.kept hstep hact
  refine ⟨hkey', hsnd', fun call work rest cursor pull htask => ?_⟩
  have hon {old : Work} (howned : WorkOwned s.rows pull.ref old) (hgoes : GoesOn work old.names old.entries) :
      WorkOwned s'.rows pull.ref work := by
    refine ⟨fun hst => ?_, fun id hid => ?_, fun entry hent => howned.entries entry (hgoes.entries hent)⟩
    · rw [hgoes.begun] at hst
      cases hst
    · exact (howned.names id (hgoes.names hid)).kept hstep hown
  rcases clientStep_call hstep htask with hold | hspawn | ⟨old, input, outcome, rfl, hold, hres, hnext, hrows⟩
  · have howned := h.works call work rest cursor pull hold
    exact ⟨howned.starts, fun id hid => (howned.names id hid).kept hstep hown, howned.entries⟩
  · have hbeg : (Task.work work (.items rest cursor pull)).begins = false := by cases work <;> rfl
    rw [Act.begins_of_spawns hspawn] at hbeg
    cases hbeg
  · have hst := resume_stands hres hnext
    rw [hrows] at hst
    generalize hout : s'.rows = rows' at hst
    cases hst with
    | bare hbare =>
      obtain ⟨attention, rfl⟩ := storing_of_bare hbare
      exact ⟨fun _ => ⟨attention, rfl⟩, fun id hid => (by cases hid), fun entry hent => (by cases hent)⟩
    | @worked work₀ _ _ _ hcar =>
      have howned := h.works call work₀ rest cursor pull hold
      cases hcar with
      | on hgoes => exact hout ▸ hon howned hgoes
      | received =>
        obtain ⟨attention, heq⟩ := howned.starts rfl
        cases heq
      | @stored ref attention record hrec =>
        obtain ⟨attention', heq⟩ := howned.starts rfl
        cases heq
        have howner : record.owner = pull.ref.owner := by
          cases input with
          | go now notify => exact storeTx_owner (fun row hrow hatt => owner_of_ownIds hown hold hrow hatt) hrec
          | lost =>
            cases hres
            cases hnext
          | failed =>
            cases hres
            rcases follow_next hnext with ⟨_, ⟨⟩, -⟩ | hbare | ⟨_, _, _, ⟨⟩, -⟩
            cases hbare
          | _ => cases hres
        rw [hout] at hkey' hsnd'
        exact workOwned_of_row hkey' hsnd' (storeTx_get hrec) howner

theorem WorkOwned.changes (hown : WorkOwned rows ref work) (hsnd : Sound rows)
    {row row' : Option LocalAttention} (hrow : rows.inbox.get id = row)
    (hwr : RowWrites ctx work id row row') (hchg : row' ≠ row)
    (hstor : ∀ attention old, work = .storing ref attention → id = obligationIdOf ctx ref attention →
      row = some old → attest ctx attention ref.owner old.attention.entry = true → old.owner = ref.owner) :
    (∀ old, row = some old → old.owner = ref.owner) ∧ ∀ new, row' = some new → new.owner = ref.owner := by
  -- A row that the work names is of the owner, and the write leaves its thread.
  have hnamed {old new : LocalAttention} (hid : id ∈ work.names) (hold : rows.inbox.get id = some old)
      (hthr : new.owner = old.owner) :
      (∀ r, some old = some r → r.owner = ref.owner) ∧ ∀ r, some new = some r → r.owner = ref.owner := by
    obtain ⟨owned, hget, howner⟩ := hown.names id hid
    rw [hold] at hget
    cases hget
    refine ⟨fun r hr => ?_, fun r hr => ?_⟩
    · cases hr
      exact howner
    · cases hr
      exact hthr.trans howner
  cases hwr with
  | kept => exact absurd rfl hchg
  | received =>
    obtain ⟨attention, heq⟩ := hown.starts rfl
    cases heq
  | stored ref' attention previous hatt =>
    obtain ⟨attention', heq⟩ := hown.starts rfl
    cases heq
    refine ⟨fun old hold => ?_, fun new hnew => ?_⟩
    · subst hold
      exact hstor attention old rfl rfl rfl hatt
    · cases hnew
      have howner : attention.threadRef.owner = ref.owner := owner_of_attest hatt
      exact howner
  | acked => exact hnamed mem_cons_self hrow rfl
  | checkFailed | settled => exact hnamed (mem_singleton_self _) hrow rfl
  | confirmed entry context via begun _ row =>
    by_cases hof : row.isOf entry = true
    · have hslot : row.owner = ref.owner := by
        obtain ⟨held, hheld, hsame⟩ := (Option.any_eq_true _ _).mp hof
        simp only [Bool.and_eq_true, decide_eq_true_eq] at hsame
        have hent := hown.entries entry (mem_singleton_self _)
        rw [LocalAttention.owner, ← (soundAttention_iff.mp (hsnd id row hrow) held hheld).1, hsame.1, hent]
      refine ⟨fun old hold => ?_, fun new hnew => ?_⟩
      · cases hold
        exact hslot
      · cases hnew
        rw [confirmed_owner, hslot]
    · refine absurd ?_ hchg
      simp [LocalAttention.confirmed, hof]

theorem Owned.own_rows (h : Owned s) (hstep : clientStep ctx s a = some s') (hown : ownIds ctx ⟨s, a, s'⟩ = true) :
    OwnRowsOnly ⟨s, a, s'⟩ := by
  rintro call input task ref rfl htask href id hchg
  have hact := clientStep_row hstep id
  generalize hbef : s.rows.inbox.get id = row at hact hchg ⊢
  generalize s'.rows.inbox.get id = row' at hact hchg ⊢
  cases hact with
  | kept => exact absurd rfl hchg
  | @handled _ now notify work after _ _ hstd hwr =>
    rw [hstd] at htask
    cases htask
    cases after with
    | items rest cursor pull =>
      cases href
      refine (h.works call work rest cursor pull hstd).changes h.sound hbef hwr hchg ?_
      rintro attention old rfl rfl rfl hatt
      exact owner_of_ownIds hown hstd hbef hatt
    | caller | todos | inbox => cases href

end Steps

/-- Take any run of a client that starts with an empty store and in which no two owners use one obligation id.
Whatever a reconciliation with an owner creates or changes in the inbox is a row of a thread of that owner. -/
theorem reconcile_keeps_to_owner (ctx : Context) {s : OnlyneClient} {h : List (Transition OnlyneClient Act)}
    (hrun : Run (clientStep ctx) {} h s) (hservice : ∀ t ∈ h, t.act.sound = true)
    (hown : ∀ t ∈ h, ownIds ctx t = true) : ∀ t ∈ h, OwnRowsOnly t := by
  intro t ht
  have hstart : Owned {} := by
    refine ⟨fun id row hrow => ?_, fun id row hrow => ?_, fun call work rest cursor pull htask => ?_⟩
    · cases hrow
    · cases hrow
    · cases htask
  have howned : Owned t.before := hrun.before_of (C := fun t => t.act.sound = true ∧ ownIds ctx t = true)
      (fun t ht => ⟨hservice t ht, hown t ht⟩) hstart
      (fun _ _ _ howned hstep hC => howned.kept hstep hC.2 hC.1) ht
  exact howned.own_rows (hrun.step_of_mem ht) (hown t ht)

namespace Scenario

def carols : Entry :=
  { entry with
    threadRef := ⟨"carol", "u"⟩
    message := ⟨"m", "carol", "note", "hi", none⟩
    authenticatedAuthor := "carol" }

def twoOwners (second : Attention) : List Act :=
  [.reconcile 0, .advance 0 (.refs [⟨"bob", "t"⟩, ⟨"carol", "u"⟩] none), .advance 0 (.refs [] none),
    .advance 0 go, .advance 0 (.attention [attentionOf entry "o" "ann"] none), .advance 0 go, .advance 0 go,
    .advance 0 go, .advance 0 .done, .advance 0 go, .advance 0 go, .advance 0 go, .advance 0 go,
    .advance 0 (.injected "ann" false 0), .advance 0 go, .advance 0 go,
    .advance 0 (.attention [second] none), .advance 0 go, .advance 0 go]

def takenOver (t : Transition OnlyneClient Act) : Bool :=
  match t.act with
  | .advance call _ =>
    ((t.before.calls.get call).bind Task.reconciles = some ⟨"carol", "u"⟩) &&
      ((t.before.rows.inbox.get "o").any fun row => row.owner = "bob") &&
      (t.after.rows.inbox.get "o").any fun row => row.owner = "carol"
  | _ => false

end Scenario

open Scenario in
/-- Two owners that list one row each, under ids of their own. -/
theorem reconcile_keeps_to_owner_two :
    ∃ h s, Run (clientStep ann) {} h s ∧ ((s.rows.inbox.get "o").any fun row => row.owner = "bob") = true ∧
      ((s.rows.inbox.get "p").any fun row => row.owner = "carol") = true ∧ ∀ t ∈ h, OwnRowsOnly t := by
  obtain ⟨h, s, hrun, hbob, hcarol, hsrv, hown⟩ := exists_run (clientStep ann) {}
    (twoOwners (attentionOf carols "p" "ann"))
    (fun h s => ((s.rows.inbox.get "o").any fun row => row.owner = "bob") = true ∧
      ((s.rows.inbox.get "p").any fun row => row.owner = "carol") = true ∧
      (∀ t ∈ h, t.act.sound = true) ∧ ∀ t ∈ h, ownIds ann t = true)
    (by decide +kernel)
  exact ⟨h, s, hrun, hbob, hcarol, reconcile_keeps_to_owner ann hrun hsrv hown⟩

open Scenario in
/-- Carol lists an entry of a thread of carol under the obligation id of a row of bob: the row of bob is
overwritten. -/
theorem row_of_other_owner_overwritten : ∃ h s, Run (clientStep ann) {} h s ∧ ∃ t ∈ h, ¬ OwnRowsOnly t := by
  obtain ⟨h, s, hrun, t, ht, htk⟩ := exists_run (clientStep ann) {} (twoOwners (attentionOf carols "o" "ann"))
    (fun h _ => ∃ t ∈ h, takenOver t = true) (by decide +kernel)
  refine ⟨h, s, hrun, t, ht, fun hown => ?_⟩
  unfold takenOver at htk
  split at htk
  · next call input hact =>
    simp only [Bool.and_eq_true, decide_eq_true_eq, bind_eq_some_iff] at htk
    obtain ⟨⟨⟨task, htask, href⟩, hbob⟩, hcarol⟩ := htk
    obtain ⟨row, hrow, howner⟩ := (Option.any_eq_true _ _).mp hbob
    obtain ⟨row', hrow', hown'⟩ := (Option.any_eq_true _ _).mp hcarol
    have hbobs : row.owner = "bob" := of_decide_eq_true howner
    have hcarols : row'.owner = "carol" := of_decide_eq_true hown'
    have hchg : t.after.rows.inbox.get "o" ≠ t.before.rows.inbox.get "o" := by
      intro hsame
      rw [hrow, hrow'] at hsame
      cases hsame
      rw [hbobs] at hcarols
      exact absurd hcarols (by decide)
    have hforeign := (hown call input task _ hact htask href "o" hchg).1 row hrow
    rw [hbobs] at hforeign
    exact absurd hforeign (by decide)
  · cases htk

end Onlyne.Client
