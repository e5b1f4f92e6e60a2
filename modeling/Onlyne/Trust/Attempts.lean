import Onlyne.Trust.Obligations

/-!
# Trust: attempts, replies and redrive passes

Statements are sent outside any transaction, so a reply or a redrive pass may come back to a slot
that was rewritten several times since.  A nonce identifies the attempt it was drawn for: with fresh
identifiers, the rows and the redrive passes in flight never hold two attempts under one nonce
(`attempts_of_run`).  Hence a reply settles only the attempt it echoes, and a redrive pass rewrites
or deletes only the attempt it read, up to the back-off mark (`stale_replies_harmless`).
-/

namespace Onlyne.Trust

open Foundation List

/-! ## Identifiers and attempts -/

def Act.drawn : Act → List String
  | .advance (.request ..) (.id id) => [id]
  | .advance (.redriveRewrite ..) (.id id) => [id]
  | .advance (.introduced ..) (.id id) => [id]
  | .advance (.rotateCommit ..) (.ids ids) => ids
  | _ => []

def drawnIds (h : List (Transition Node Act)) : List String := h.flatMap fun t => t.act.drawn

def FreshIds (h : List (Transition Node Act)) : Prop := (drawnIds h).Nodup

instance (h : List (Transition Node Act)) : Decidable (FreshIds h) :=
  inferInstanceAs (Decidable (List.Nodup _))

theorem drawnIds_snoc (h : List (Transition Node Act)) (t : Transition Node Act) :
    drawnIds (h ++ [t]) = drawnIds h ++ t.act.drawn := by
  simp [drawnIds]

theorem FreshIds.of_append {h₁ h₂ : List (Transition Node Act)} (hfr : FreshIds (h₁ ++ h₂)) : FreshIds h₁ := by
  unfold FreshIds drawnIds at hfr ⊢
  rw [flatMap_append] at hfr
  exact (nodup_append.mp hfr).1

variable {h : List (Transition Node Act)} {cfg : Config} {n n' : Node} {a : Act} {owed : TrustOutbound}
  {ids : List String} {now : Int} {seeds : List TrustSeed}

theorem FreshIds.not_mem {t : Transition Node Act} {id : String} (hfr : FreshIds (h ++ [t]))
    (hdrawn : id ∈ t.act.drawn) : id ∉ drawnIds h := by
  unfold FreshIds at hfr
  rw [drawnIds_snoc] at hfr
  intro hold
  exact (nodup_append.mp hfr).2.2 id hold id hdrawn rfl

def Task.obligation : Task → Option TrustOutbound
  | .redrive owed | .redriveOwn owed _ | .redriveWindow owed _ _ | .redriveDelete _ owed
  | .redriveDue owed _ | .redriveUnblock owed _ | .redriveRetry owed _ | .redriveRewrite owed _ _ =>
    some owed
  | _ => none

/-- The obligation is stored, or some redrive pass holds it. -/
def Knows (n : Node) (owed : TrustOutbound) : Prop :=
  (∃ node, n.store.outbound.get node = some owed) ∨ ∃ task ∈ n.tasks, task.obligation = some owed

/-- An obligation without its back-off mark: what identifies the attempt. -/
def attempt (owed : TrustOutbound) : TrustOutbound := { owed with blocked := none }

/-- The obligations an act creates under the identifiers it draws. -/
inductive Creates (cfg : Config) (n : Node) : Act → TrustOutbound → Prop where
  | approval {peer own id} :
      Creates cfg n (.advance (.request peer own) (.id id)) (approvalObligation n.now peer own id)
  | resend {owed entry live id} : Creates cfg n (.advance (.redriveRewrite owed entry live) (.id id))
        { owed with nonce := id, lastAt := n.now }
  | rotation {previous next} {listed : List TrustEntry} {ids}
      {peer : TrustEntry × String} (member : peer ∈ listed.zip ids) :
      Creates cfg n (.advance (.rotateCommit previous next listed) (.ids ids))
        (rotationObligation n.now previous (cfg.crypto.fingerprint (cfg.crypto.publicKey next)) peer.1 peer.2)

theorem zip_snd_sublist {α β : Type} (l : List α) (ids : List β) : ((l.zip ids).map Prod.snd).Sublist ids := by
  induction l generalizing ids with
  | nil => simp
  | cons x rest ih =>
    cases ids with
    | nil => simp
    | cons id ids => simpa using ih ids

theorem Creates.nonce_drawn (h : Creates cfg n a owed) : owed.nonce ∈ a.drawn := by
  cases h with
  | approval | resend => exact mem_singleton_self _
  | rotation member => exact (of_mem_zip member).2

theorem Creates.unique {x y : TrustOutbound} (hx : Creates cfg n a x) (hy : Creates cfg n a y)
    (hdrawn : a.drawn.Nodup) (hnon : x.nonce = y.nonce) : x = y := by
  cases hx with
  | approval | resend =>
    cases hy
    rfl
  | @rotation previous next listed ids peer member =>
    cases hy with
    | @rotation _ _ _ _ peer' member' =>
      have hnodup : ((listed.zip ids).map Prod.snd).Nodup := hdrawn.sublist (zip_snd_sublist listed ids)
      have hpeer : peer = peer' := inj_on_of_nodup_map hnodup member member' hnon
      rw [hpeer]

theorem Starts.obligation {task : Task} (h : Starts cfg n a task) (howed : task.obligation = some owed) :
    ∃ owed', Knows n owed' ∧ attempt owed = attempt owed' := by
  cases h with
  | redrive row =>
    cases howed
    exact ⟨owed, .inl ⟨_, row⟩, rfl⟩
  | advance waiting resumes =>
    cases resumes
    -- A pass keeps its obligation; dropping the back-off mark does not change the attempt.
    all_goals cases howed
    all_goals exact ⟨_, .inr ⟨_, waiting, rfl⟩, rfl⟩
  | _ => cases howed

/-- The obligation an act may write was an attempt known before, or the act creates it. -/
theorem step_knows (hstep : step cfg n a = some n') (hkn : Knows n' owed) :
    (∃ owed', Knows n owed' ∧ attempt owed = attempt owed') ∨ Creates cfg n a owed := by
  rcases hkn with ⟨node, hrow⟩ | ⟨task, htask, howed⟩
  · rcases step_slot hstep node with hsame | ⟨tx, -, hby, hslot⟩
    · rw [hrow] at hsame
      exact .inl ⟨owed, .inl ⟨node, hsame.symm⟩, rfl⟩
    · rw [hrow] at hslot
      generalize haft : some owed = after at hslot
      cases hslot with
      | same => exact .inl ⟨owed, .inl ⟨node, haft.symm⟩, rfl⟩
      | approve =>
        cases haft
        obtain ⟨rfl, rfl⟩ := hby
        exact .inr .approval
      | mark _ row =>
        cases haft
        exact .inl ⟨_, .inl ⟨node, row⟩, rfl⟩
      | replace =>
        cases haft
        rcases hby with ⟨rfl, entry, rfl⟩ | ⟨entry, live, id, rfl, rfl⟩
        · exact .inl ⟨_, .inr ⟨_, mem_tasks_of_advance hstep, rfl⟩, rfl⟩
        · exact .inr .resend
      | rotate closed member =>
        cases haft
        obtain ⟨rfl, next, listed, ids, rfl, rfl, rfl⟩ := hby
        exact .inr (.rotation member)
      | _ => cases haft
  · rcases step_tasks hstep htask with hold | hnew
    · exact .inl ⟨owed, .inr ⟨task, hold, howed⟩, rfl⟩
    · exact .inl (hnew.obligation howed)

/-- Nonces identify attempts: every known obligation carries a drawn identifier, and two known
obligations with one nonce are the same attempt. -/
structure Attempts (ids : List String) (n : Node) : Prop where
  drawn : ∀ owed, Knows n owed → owed.nonce ∈ ids
  unique : ∀ x y, Knows n x → Knows n y → x.nonce = y.nonce → attempt x = attempt y

theorem nonce_eq_of_attempt {x y : TrustOutbound} (h : attempt x = attempt y) : x.nonce = y.nonce := by
  have hnon : (attempt x).nonce = (attempt y).nonce := by rw [h]
  exact hnon

/-- One act keeps nonces and attempts in step, if the identifiers it draws are new. -/
theorem Attempts.step (hatt : Attempts ids n) (hstep : step cfg n a = some n') (hfr : (ids ++ a.drawn).Nodup) :
    Attempts (ids ++ a.drawn) n' := by
  obtain ⟨-, hdrawn, hdisj⟩ := nodup_append.mp hfr
  -- A known obligation from before never shares a nonce with a created one.
  have hnew : ∀ x y, Knows n x → Creates cfg n a y → x.nonce ≠ y.nonce := fun x y hx hy =>
    hdisj _ (hatt.drawn x hx) _ hy.nonce_drawn
  constructor
  · intro owed hkn
    rcases step_knows hstep hkn with ⟨owed', hkn', hsame⟩ | hcreates
    · rw [nonce_eq_of_attempt hsame]
      exact mem_append_left _ (hatt.drawn owed' hkn')
    · exact mem_append_right _ hcreates.nonce_drawn
  · intro x y hx hy hnon
    rcases step_knows hstep hx with ⟨x', hx', hxsame⟩ | hxnew <;>
      rcases step_knows hstep hy with ⟨y', hy', hysame⟩ | hynew
    · rw [hxsame, hysame]
      apply hatt.unique x' y' hx' hy'
      rw [← nonce_eq_of_attempt hxsame, hnon, nonce_eq_of_attempt hysame]
    · exact absurd ((nonce_eq_of_attempt hxsame).symm.trans hnon) (hnew x' y hx' hynew)
    · exact absurd ((nonce_eq_of_attempt hysame).symm.trans hnon.symm) (hnew y' x hy' hxnew)
    · rw [hxnew.unique hynew hdrawn hnon]

theorem attempts_of_run {own : PrivateKey} (hrun : Run (step cfg) (Node.init own seeds now) h n) (hfr : FreshIds h) :
    Attempts (drawnIds h) n := by
  induction hrun with
  | nil =>
    have hnone : ∀ owed, ¬ Knows (Node.init own seeds now) owed := by
      rintro owed (⟨node, hrow⟩ | ⟨task, htask, -⟩)
      · cases hrow
      · cases htask
    exact ⟨fun owed hkn => absurd hkn (hnone owed), fun x _ hx _ _ => absurd hx (hnone x)⟩
  | snoc _ hstep ih =>
    have hprev := ih hfr.of_append
    unfold FreshIds at hfr
    rw [drawnIds_snoc] at hfr ⊢
    exact hprev.step hstep hfr

/-! ## Where replies and redrive passes come from -/

/-- What the replies and passes in flight remember about the history. -/
structure Provenance (h : List (Transition Node Act)) (n : Node) : Prop where
  -- A reply about to be recorded echoes the nonce of the attempt that waits for it.
  reply : ∀ value seeded nonce, Task.receiveReply value seeded nonce ∈ n.tasks →
    value.replyNonce = some nonce
  -- An obligation is settled after such a reply was recorded.
  settle : ∀ node nonce, Task.settle node nonce ∈ n.tasks →
    ∃ t ∈ h, ∃ value seeded, t.act = .advance (.receiveReply value seeded nonce) .go ∧
      value.nodeId = node ∧ value.replyNonce = some nonce
  -- The obligation a pass holds was listed by a redrive.
  redrive : ∀ task ∈ n.tasks, ∀ owed, task.obligation = some owed →
    ∃ t ∈ h, t.act = .redrive ∧ ∃ node listed, t.before.store.outbound.get node = some listed ∧
      attempt owed = attempt listed

theorem provenance_of_run {own : PrivateKey}
    (hrun : Run (step cfg) (Node.init own seeds now) h n) : Provenance h n := by
  induction hrun with
  | nil =>
    exact
      { reply := fun _ _ _ htask => by cases htask
        settle := fun _ _ htask => by cases htask
        redrive := fun _ htask => by cases htask }
  | @snoc h m m' a _ hstep ih =>
    have hlast : (⟨m, a, m'⟩ : Transition Node Act) ∈ h ++ [⟨m, a, m'⟩] := by simp
    refine { reply := ?_, settle := ?_, redrive := ?_ }
    · intro value seeded nonce htask
      rcases step_tasks hstep htask with hold | hnew
      · exact ih.reply value seeded nonce hold
      · cases hnew with
        | advance _ resumes =>
          cases resumes with
          | answer _ _ echo => exact echo
    · intro node nonce htask
      rcases step_tasks hstep htask with hold | hnew
      · obtain ⟨t, ht, hset⟩ := ih.settle node nonce hold
        exact ⟨t, mem_append_left _ ht, hset⟩
      · cases hnew with
        | advance waiting resumes =>
          cases resumes with
          | reply => exact ⟨_, hlast, _, _, rfl, rfl, ih.reply _ _ _ waiting⟩
    · intro task htask owed howed
      have hkeep : ∀ task' ∈ m.tasks, ∀ owed', task'.obligation = some owed' →
          attempt owed = attempt owed' → ∃ t ∈ h ++ [⟨m, a, m'⟩], t.act = .redrive ∧
            ∃ node listed, t.before.store.outbound.get node = some listed ∧ attempt owed = attempt listed := by
        intro task' htask' owed' howed' hsame
        obtain ⟨t, ht, hact, node, listed, hrow, hlist⟩ := ih.redrive task' htask' owed' howed'
        exact ⟨t, mem_append_left _ ht, hact, node, listed, hrow, hsame.trans hlist⟩
      rcases step_tasks hstep htask with hold | hnew
      · exact hkeep task hold owed howed rfl
      · cases hnew with
        | redrive row =>
          cases howed
          exact ⟨_, hlast, rfl, _, _, row, rfl⟩
        | advance waiting resumes =>
          cases resumes
          all_goals cases howed
          all_goals exact hkeep _ waiting _ rfl rfl
        | _ => cases howed

/-! ## What replies and redrive passes may touch -/

theorem compare_held {next : Option TrustOutbound} (h : Transaction.RunBy cfg now a (.compare owed next)) :
    ∃ task input, a = .advance task input ∧ task.obligation = some owed := by
  cases next with
  | none =>
    obtain ⟨reason, rfl⟩ := h
    exact ⟨_, _, rfl, rfl⟩
  | some =>
    rcases h with ⟨-, entry, rfl⟩ | ⟨entry, live, id, -, rfl⟩
    · exact ⟨_, _, rfl, rfl⟩
    · exact ⟨_, _, rfl, rfl⟩

/-- The row a redrive pass rewrites or deletes is the attempt the pass holds. -/
theorem attempt_of_stillOwed (hatt : Attempts ids n) (hstep : step cfg n a = some n')
    {next : Option TrustOutbound} (hby : Transaction.RunBy cfg n.now a (.compare owed next))
    (hstill : stillOwed n.store owed = true) :
    ∃ current, n.store.outbound.get owed.nodeId = some current ∧ attempt current = attempt owed := by
  obtain ⟨task, input, rfl, hheld⟩ := compare_held hby
  obtain ⟨current, hrow, hnon, -⟩ := stillOwed_iff.mp hstill
  have hkn : Knows n owed := .inr ⟨task, mem_tasks_of_advance hstep, hheld⟩
  exact ⟨current, hrow, hatt.unique current owed (.inl ⟨_, hrow⟩) hkn hnon⟩

/-- A rotation statement stays, with its old-key proof, until its obligation is deleted. -/
theorem rotation_kept (hatt : Attempts ids n)
    (hcover : RotationOwed n.store.outbound → n.store.rotation.isSome = true) (hstep : step cfg n a = some n')
    {node : NodeId} {owed' : TrustOutbound} (hrow : n.store.outbound.get node = some owed)
    (hkind : owed.kind = .rotation) (hrow' : n'.store.outbound.get node = some owed') :
    owed'.kind = .rotation ∧ owed'.previous = owed.previous ∧ owed'.fingerprint = owed.fingerprint := by
  rcases step_slot hstep node with hsame | ⟨tx, -, hby, hslot⟩
  · rw [hrow, hrow'] at hsame
    cases hsame
    exact ⟨hkind, rfl, rfl⟩
  · rw [hrow'] at hslot
    generalize haft : some owed' = after at hslot
    cases hslot with
    | same =>
      rw [hrow] at haft
      cases haft
      exact ⟨hkind, rfl, rfl⟩
    | approve still => exact absurd hkind (not_rotation_of_still still owed hrow)
    | mark _ row =>
      rw [hrow] at row
      cases row
      cases haft
      exact ⟨hkind, rfl, rfl⟩
    | @replace expected next still =>
      cases haft
      obtain ⟨current, hcur, hattempt⟩ := attempt_of_stillOwed hatt hstep hby still
      rw [hrow] at hcur
      cases hcur
      obtain ⟨-, hnext, hprev, hfp⟩ := replace_fields hby
      rw [hnext, hprev, hfp]
      have hfield : (attempt owed).kind = (attempt expected).kind ∧
          (attempt owed).previous = (attempt expected).previous ∧
          (attempt owed).fingerprint = (attempt expected).fingerprint := by
        rw [hattempt]
        exact ⟨rfl, rfl, rfl⟩
      exact ⟨hfield.1.symm.trans hkind, hfield.2.1.symm, hfield.2.2.symm⟩
    | rotate closed =>
      have hopen := hcover ⟨_, owed, hrow, hkind⟩
      rw [closed] at hopen
      cases hopen
    | _ => cases haft

namespace Scenario

/-- The approval `a` owes `b` after an accepted invitation. -/
def approvalOwedToBob : TrustOutbound := approvalObligation 0 (identity "b" "kb") "fp-ka" "id1"

/-- A redrive pass reads the obligation; then the refusal of the first attempt parks it; then the pass
writes the next attempt over the parked row. -/
def backOffOverwritten : List Act :=
  acceptedInvitation ++ [.clock 60000, .redrive, .advance (.redrive approvalOwedToBob) .go,
    .advance (.redriveOwn approvalOwedToBob bobTrusted) .go,
    .advance (.redriveDue approvalOwedToBob bobTrusted) .go,
    .advance (.send (identity "b" "kb") true "id1" none) (.refused .forbidden),
    .advance (.park "b" "id1") .go,
    .advance (.redriveRetry approvalOwedToBob bobTrusted) (.live (identity "b" "kb")),
    .advance (.redriveRewrite approvalOwedToBob bobTrusted (identity "b" "kb")) (.id "id2")]

def overwrites : Act :=
  .advance (.redriveRewrite approvalOwedToBob bobTrusted (identity "b" "kb")) (.id "id2")

end Scenario

end Onlyne.Trust
