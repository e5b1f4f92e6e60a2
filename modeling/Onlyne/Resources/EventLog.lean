import Onlyne.Resources.Calls
import Onlyne.Resources.Outputs

/-!
# Resources: the event log

The events of a resource are numbered from one without a gap, and a row of the log changes only when its
event expires.  The source row of a platform event is what deduplicates it; it goes only after the driver
was told that its event left retention.  Expiry and the end of the source row are two transactions with the
hook of the driver between them, so what a recovery pass in flight holds is related to the rows
(`Logs.retiring`) and to what was announced before (`Announced`).
-/

namespace Onlyne.Resources

open Foundation Table List Option

def ResourceEvent.key (event : ResourceEvent) : ResourceRef × String := (event.resourceRef, event.eventId)

def ResourceEvent.marked (event : ResourceEvent) : ResourceEvent := { event with expired := true }

theorem ResourceEvent.marked_of_expired {event : ResourceEvent} (h : event.expired = true) : event.marked = event := by
  unfold ResourceEvent.marked
  rw [← h]

def Filed (rows : Table (ResourceRef × String) ResourceEvent) : Prop :=
  ∀ key event, rows.get key = some event → event.key = key

def Marked (rows rows' : Table (ResourceRef × String) ResourceEvent) : Prop :=
  ∀ key, rows'.get key = rows.get key ∨
    ∃ event, rows.get key = some event ∧ rows'.get key = some event.marked

/-! ## The two transactions of expiry -/

section Expiry

variable {ctx : Context} {rows rows' : Table (ResourceRef × String) ResourceEvent} {sources : Table (ResourceRef × String) String} {now : Int}

theorem Marked.put {event : ResourceEvent} (h : Marked rows rows') (hrow : rows.get event.key = some event) :
    Marked rows (rows'.put event.key event.marked) := by
  intro key
  rw [get_put]
  split_ifs with hkey
  · subst hkey
    exact .inr ⟨event, hrow, rfl⟩
  · exact h key

theorem Filed.marked (hfiled : Filed rows) (h : Marked rows rows') : Filed rows' := by
  intro key event hrow
  rcases h key with hsame | ⟨before, hbef, haft⟩
  · rw [hsame] at hrow
    exact hfiled key event hrow
  · rw [haft] at hrow
    cases hrow
    exact hfiled key before hbef

/-- An event the expiry scan announces: it is stored, its source row names it, and it is marked now. -/
def Retiring (rows rows' : Table (ResourceRef × String) ResourceEvent)
    (sources : Table (ResourceRef × String) String) (event : ResourceEvent) : Prop :=
  rows.get event.key = some event ∧
    sources.get (event.resourceRef, event.sourceId) = some event.eventId ∧
    rows'.get event.key = some event.marked

theorem Retiring.put {event other : ResourceEvent} (h : Retiring rows rows' sources event)
    (hrow : rows.get other.key = some other) : Retiring rows (rows'.put other.key other.marked) sources event := by
  refine ⟨h.1, h.2.1, ?_⟩
  rw [get_put]
  split_ifs with hkey
  · rw [← hkey, h.1] at hrow
    cases hrow
    rfl
  · exact h.2.2

/-- One event of the scan keeps what is known of the rows and of the events to announce. -/
theorem expireEvent_spec {state state' : List ResourceEvent × Store} {value : ResourceEvent}
    (h : expireEvent ctx sources now state value = .ok state') (hrow : rows.get value.key = some value)
    (hmark : Marked rows state.2.event)
    (hret : ∀ event ∈ state.1, Retiring rows state.2.event sources event) : Marked rows state'.2.event ∧
      ∀ event ∈ state'.1, Retiring rows state'.2.event sources event := by
  simp only [expireEvent, bind_eq_ok, checked_eq_ok] at h
  obtain ⟨expires, -, h⟩ := h
  split_ifs at h with hdue hnm hexp hexp
  · cases h
    exact ⟨hmark, hret⟩
  · cases h
    refine ⟨hmark, ?_⟩
    intro event hev
    rcases mem_append.mp hev with hold | hnew
    · exact hret event hold
    · cases mem_singleton.mp hnew
      refine ⟨hrow, hnm, ?_⟩
      rcases hmark value.key with hsame | ⟨before, hbef, haft⟩
      · rw [ResourceEvent.marked_of_expired hexp, ← hrow]
        exact hsame
      · rw [hrow] at hbef
        cases hbef
        exact haft
  · cases h
    refine ⟨hmark.put hrow, ?_⟩
    intro event hev
    rcases mem_append.mp hev with hold | hnew
    · exact (hret event hold).put hrow
    · cases mem_singleton.mp hnew
      exact ⟨hrow, hnm, get_put_self _ _ _⟩
  · cases h
    exact ⟨hmark, hret⟩
  · cases h
    exact ⟨hmark.put hrow, fun event hev => (hret event hev).put hrow⟩

theorem expireFold_spec {values : List ResourceEvent} {state state' : List ResourceEvent × Store}
    (h : values.foldlM (expireEvent ctx sources now) state = .ok state')
    (hrows : ∀ value ∈ values, rows.get value.key = some value) (hmark : Marked rows state.2.event)
    (hret : ∀ event ∈ state.1, Retiring rows state.2.event sources event) : Marked rows state'.2.event ∧
      ∀ event ∈ state'.1, Retiring rows state'.2.event sources event := by
  induction values generalizing state with
  | nil =>
    cases h
    exact ⟨hmark, hret⟩
  | cons value rest ih =>
    obtain ⟨next, hnext, hrest⟩ := bind_eq_ok.mp h
    obtain ⟨hmark', hret'⟩ := expireEvent_spec hnext (hrows value mem_cons_self) hmark hret
    exact ih hrest (fun other hoth => hrows other (mem_cons_of_mem _ hoth)) hmark' hret'

/-- The first transaction marks events, and announces those that are marked and still have their source
row. -/
theorem expireEvents_spec {s s' : Store} {events : List ResourceEvent} (hfiled : Filed s.event)
    (h : expireEvents ctx now s = .ok (events, s')) :
    Marked s.event s'.event ∧ ∀ event ∈ events, Retiring s.event s'.event s.source event := by
  refine expireFold_spec h ?_ (fun key => .inl rfl) (fun event hev => by cases hev)
  intro value hval
  obtain ⟨⟨key, _⟩, hmem, rfl⟩ := List.mem_map.mp hval
  have hrow := mem_rows.mp hmem
  rw [hfiled key _ hrow]
  exact hrow

/-- The second transaction deletes the source rows that still name a retired event, and no other. -/
theorem retireSources_spec (events : List ResourceEvent) (s : Store) (key : ResourceRef × String) :
    (retireSources events s).source.get key = s.source.get key ∨
    (retireSources events s).source.get key = none ∧ ∃ event ∈ events,
      key = (event.resourceRef, event.sourceId) ∧ s.source.get key = some event.eventId := by
  unfold retireSources
  induction events generalizing s with
  | nil => exact .inl rfl
  | cons event rest ih =>
    rw [foldl_cons]
    -- What the head does to the row, then what the rest does.
    have hhead : (retireSource s event).source.get key = s.source.get key ∨
        (retireSource s event).source.get key = none ∧
          key = (event.resourceRef, event.sourceId) ∧ s.source.get key = some event.eventId := by
      unfold retireSource
      split_ifs with hnm
      · rw [get_delete]
        split_ifs with hkey
        · exact .inr ⟨rfl, hkey, by rw [hkey]; exact hnm⟩
        · exact .inl rfl
      · exact .inl rfl
    rcases hhead with hsame | ⟨hnone, hkey, hrow⟩
    · rcases ih (retireSource s event) with hrest | ⟨hrest, other, hoth, hkey, hrow⟩
      · exact .inl (hrest.trans hsame)
      · exact .inr ⟨hrest, other, mem_cons_of_mem _ hoth, hkey, hsame ▸ hrow⟩
    · refine .inr ⟨?_, event, mem_cons_self, hkey, hrow⟩
      rcases ih (retireSource s event) with hrest | ⟨hrest, -⟩
      · rw [hrest, hnone]
      · exact hrest

end Expiry

/-! ## What one act does to the log -/

/-- `LogChange ctx s a s'`: what the act does to the counters, the events and the source rows. -/
inductive LogChange (ctx : Context) (s : Store) : Act → Store → Prop where
  | kept {a} {s' : Store} (event : s'.event = s.event) (source : s'.source = s.source)
      (seq : ∀ ref, (s'.resource.get ref).map Resource.eventSeq =
        (s.resource.get ref).map Resource.eventSeq) : LogChange ctx s a s'
  | registered {actor} {resource : Resource} (free : s.resource.get resource.resourceRef = none)
      (seq : ∃ last, decimal resource.eventSeq = .ok last) :
      LogChange ctx s (.register actor resource) (s.bind resource.resourceRef resource)
  | appended {actor ref} {input : EventInput} {clock}
      {resource : Resource} {event : ResourceEvent} {last} {s' : Store}
      (row : s.resource.get ref = some resource) (seq : decimal resource.eventSeq = .ok last)
      (new : ((s.source.get (ref, input.sourceId)).filter fun eventId => eventId ≠ "") = none)
      (key : event.key = (ref, toString (last + 1))) (source : event.sourceId = input.sourceId)
      (resources : s'.resource = s.resource.put ref { resource with eventSeq := toString (last + 1) })
      (events : s'.event = s.event.put (ref, toString (last + 1)) event)
      (sources : s'.source = s.source.put (ref, input.sourceId) (toString (last + 1))) :
      LogChange ctx s (.receive actor ref input clock) s'
  | expired {clock : Clock} {events} {s' : Store}
      (scan : expireEvents ctx clock.first s = .ok (events, s')) (resource : s'.resource = s.resource)
      (source : s'.source = s.source) : LogChange ctx s (.advance .expire (.go clock)) s'
  | forgotten {events clock} {s' : Store}
      (gone : retireSources events s = s') (resource : s'.resource = s.resource)
      (event : s'.event = s.event) : LogChange ctx s (.advance (.forget events) (.go clock)) s'

theorem eventSeq_put {resources : Table ResourceRef Resource} {ref : ResourceRef}
    {resource moved : Resource} (row : resources.get ref = some resource)
    (hseq : moved.eventSeq = resource.eventSeq) (ref' : ResourceRef) :
    ((resources.put ref moved).get ref').map Resource.eventSeq = (resources.get ref').map Resource.eventSeq := by
  rw [get_put]
  split_ifs with href
  · subst href
    rw [row, map_some, map_some, hseq]
  · rfl

theorem Change.log {ctx : Context} {s s' : Store} {a : Act} (h : Change ctx s a s') : LogChange ctx s a s' := by
  cases h with
  | registered owner handler free cursor seq => exact .registered free seq
  | received row seq new home number source =>
    refine .appended row seq new ?_ source ?_ ?_ ?_
    · rw [ResourceEvent.key, home, number]
    · rw [number]
    · rw [number]
    · rw [number]
  | acked row => exact .kept rfl rfl (eventSeq_put row rfl)
  | switched handover unfinished bound =>
    exact .kept rfl rfl (eventSeq_put bound rfl)
  | expired scan => exact .expired scan rfl rfl
  | forgotten gone => exact .forgotten gone rfl rfl
  | _ => exact .kept rfl rfl fun _ => rfl

/-- Every event of a log has a number up to its counter, and a log without a counter is empty. -/
def Counted (s : Store) : Prop :=
  ∀ ref id event, s.event.get (ref, id) = some event → ∃ resource last number,
    s.resource.get ref = some resource ∧ decimal resource.eventSeq = .ok last ∧
      1 ≤ number ∧ number ≤ last ∧ id = toString number

def Sourced (s : Store) : Prop :=
  ∀ ref source id, s.source.get (ref, source) = some id →
    id ≠ "" ∧ ∃ event, s.event.get (ref, id) = some event ∧ event.sourceId = source

section Step

variable {ctx : Context} {s s' : Store} {a : Act} {ref : ResourceRef} {key : ResourceRef × String}
  {resource : Resource} {last : Nat}

theorem Counted.next_free (hcnt : Counted s)
    (hrow : s.resource.get ref = some resource) (hseq : decimal resource.eventSeq = .ok last) :
    s.event.get (ref, toString (last + 1)) = none := by
  cases hev : s.event.get (ref, toString (last + 1)) with
  | none => rfl
  | some event =>
    obtain ⟨resource', last', number, hrow', hseq', -, hle, hid⟩ := hcnt _ _ _ hev
    rw [hrow] at hrow'
    cases hrow'
    rw [hseq] at hseq'
    cases hseq'
    have := toString_nat_injective hid
    omega

section

variable (h : LogChange ctx s a s')
include h

section

variable (hfiled : Filed s.event)
include hfiled

theorem LogChange.event (hcnt : Counted s) {event : ResourceEvent} (hrow : s.event.get key = some event) :
    s'.event.get key = some event ∨ event.expired = false ∧ s'.event.get key = some event.marked := by
  cases h with
  | kept events | forgotten gone resource events => exact .inl (events ▸ hrow)
  | registered => exact .inl hrow
  | appended row seq new home source resources events =>
    refine .inl ?_
    rw [events]
    refine (get_put_ne _ _ ?_).trans hrow
    rintro rfl
    rw [hcnt.next_free row seq] at hrow
    cases hrow
  | expired scan =>
    rcases (expireEvents_spec hfiled scan).1 key with hsame | ⟨before, hbef, haft⟩
    · exact .inl (hsame.trans hrow)
    · rw [hrow] at hbef
      cases hbef
      cases hexp : event.expired with
      | false => exact .inr ⟨rfl, haft⟩
      | true => exact .inl (by rw [haft, ResourceEvent.marked_of_expired hexp])

/-- A row of the log was there, up to its mark, or it is the one that was appended. -/
theorem LogChange.event_new {event' : ResourceEvent} (hrow : s'.event.get key = some event') :
    (∃ event, s.event.get key = some event) ∨ ∃ actor ref input clock, ∃ (resource : Resource) (last : Nat),
      a = .receive actor ref input clock ∧ key = (ref, toString (last + 1)) ∧
      s'.resource.get ref = some { resource with eventSeq := toString (last + 1) } := by
  cases h with
  | kept events | forgotten gone resource events => exact .inl ⟨event', events ▸ hrow⟩
  | registered => exact .inl ⟨event', hrow⟩
  | @appended actor ref input clock resource event last _ row seq new home source resources events sources =>
    rw [events] at hrow
    rcases get_put_cases hrow with ⟨rfl, -⟩ | ⟨-, hold⟩
    · refine .inr ⟨actor, ref, input, clock, resource, last, rfl, rfl, ?_⟩
      rw [resources]
      exact get_put_self _ _ _
    · exact .inl ⟨event', hold⟩
  | expired scan =>
    rcases (expireEvents_spec hfiled scan).1 key with hsame | ⟨before, hbef, -⟩
    · exact .inl ⟨event', hsame ▸ hrow⟩
    · exact .inl ⟨before, hbef⟩

theorem LogChange.filed : Filed s'.event := by
  cases h with
  | kept events | forgotten gone resource events => rw [events]; exact hfiled
  | registered => exact hfiled
  | appended row seq new home source resources events =>
    intro key event hrow
    rw [events] at hrow
    exact of_put hfiled hrow home
  | expired scan => exact hfiled.marked (expireEvents_spec hfiled scan).1

end

theorem LogChange.counter
    (hrow : s.resource.get ref = some resource) (hseq : decimal resource.eventSeq = .ok last) : ∃ resource' last',
      s'.resource.get ref = some resource' ∧ decimal resource'.eventSeq = .ok last' ∧ last ≤ last' := by
  cases h with
  | kept events sources seq =>
    have hsame := seq ref
    rw [hrow, map_some] at hsame
    obtain ⟨resource', hrow', hseq'⟩ := map_eq_some_iff.mp hsame
    exact ⟨resource', last, hrow', by rw [hseq', hseq], Nat.le_refl _⟩
  | registered free =>
    refine ⟨resource, last, (get_put_ne _ _ ?_).trans hrow, hseq, Nat.le_refl _⟩
    rintro rfl
    rw [free] at hrow
    cases hrow
  | @appended _ appended _ _ _ _ last₀ _ row seq new home source resources =>
    rw [resources]
    by_cases href : ref = appended
    · subst href
      rw [hrow] at row
      cases row
      rw [hseq] at seq
      cases seq
      exact ⟨_, last + 1, get_put_self _ _ _, decimal_toString _, Nat.le_succ _⟩
    · exact ⟨resource, last, (get_put_ne _ _ href).trans hrow, hseq, Nat.le_refl _⟩
  | expired scan resources | forgotten gone resources => exact ⟨resource, last, resources ▸ hrow, hseq, Nat.le_refl _⟩

end

def Readable (s : Store) : Prop :=
  ∀ ref resource, s.resource.get ref = some resource → ∃ last, decimal resource.eventSeq = .ok last

section

variable (h : LogChange ctx s a s')
include h

theorem LogChange.readable (hreadable : Readable s) : Readable s' := by
  intro ref resource' hrow'
  cases h with
  | kept events sources seq =>
    have hsame := seq ref
    rw [hrow', map_some] at hsame
    obtain ⟨resource, hrow, hseq⟩ := map_eq_some_iff.mp hsame.symm
    rw [← hseq]
    exact hreadable ref resource hrow
  | registered free seq =>
    exact of_put hreadable hrow' seq
  | appended row seq new home source resources =>
    rw [resources] at hrow'
    exact of_put hreadable hrow' ⟨_, decimal_toString _⟩
  | expired scan resources | forgotten gone resources => exact hreadable ref resource' (resources ▸ hrow')

theorem LogChange.counted (hfiled : Filed s.event) (hcnt : Counted s) : Counted s' := by
  intro ref id event' hrow
  rcases h.event_new hfiled hrow with ⟨event, hbef⟩ | ⟨actor, ref', input, clock, resource, last, -, hkey, hrsc⟩
  · obtain ⟨resource, last, number, hrsc, hseq, hpos, hle, hid⟩ := hcnt _ _ _ hbef
    obtain ⟨resource', last', hrsc', hseq', hle'⟩ := h.counter hrsc hseq
    exact ⟨resource', last', number, hrsc', hseq', hpos, hle.trans hle', hid⟩
  · cases hkey
    exact ⟨_, last + 1, last + 1, hrsc, decimal_toString _, Nat.succ_le_succ (Nat.zero_le _), Nat.le_refl _, rfl⟩

theorem LogChange.sourced (hfiled : Filed s.event) (hcnt : Counted s) (hsourced : Sourced s) : Sourced s' := by
  -- The event a source row names stays, with its source.
  have hkept {ref : ResourceRef} {source id : String} (hrow : s.source.get (ref, source) = some id) :
      id ≠ "" ∧ ∃ event, s'.event.get (ref, id) = some event ∧ event.sourceId = source := by
    obtain ⟨hid, event, hev, hsrc⟩ := hsourced ref source id hrow
    rcases h.event hfiled hcnt hev with hsame | ⟨-, hmark⟩
    · exact ⟨hid, event, hsame, hsrc⟩
    · exact ⟨hid, event.marked, hmark, hsrc⟩
  intro ref source id hrow
  cases h with
  | kept events sources | expired scan resources sources => exact hkept (sources ▸ hrow)
  | registered => exact hkept hrow
  | @appended _ _ _ _ _ _ last _ row seq new home named resources events sources =>
    rw [sources] at hrow
    rcases get_put_cases hrow with ⟨hkey, rfl⟩ | ⟨-, hold⟩
    · cases hkey
      refine ⟨?_, _, by rw [events]; exact get_put_self _ _ _, named⟩
      intro hemp
      have hdec := decimal_toString (last + 1)
      rw [hemp] at hdec
      cases hdec
    · exact hkept hold
  | @forgotten events _ _ gone =>
    rcases retireSources_spec events s (ref, source) with hsame | ⟨hnone, -⟩
    · rw [gone] at hsame
      exact hkept (hsame ▸ hrow)
    · rw [gone, hrow] at hnone
      cases hnone

theorem LogChange.source (hsrc : Sourced s) {source id : String}
    (hrow : s.source.get (ref, source) = some id) : s'.source.get (ref, source) = some id ∨
      s'.source.get (ref, source) = none ∧ ∃ events clock, a = .advance (.forget events) (.go clock) ∧
        ∃ event ∈ events, event.key = (ref, id) ∧ event.sourceId = source := by
  cases h with
  | kept events sources | expired scan resources sources => exact .inl (sources ▸ hrow)
  | registered => exact .inl hrow
  | appended row seq new home named resources events sources =>
    refine .inl ?_
    rw [sources]
    refine (get_put_ne _ _ ?_).trans hrow
    intro hkey
    cases hkey
    rw [hrow] at new
    simp [(hsrc _ _ _ hrow).1] at new
  | @forgotten events clock _ gone =>
    rcases retireSources_spec events s (ref, source) with hsame | ⟨hnone, event, hev, hkey, hnm⟩
    · rw [gone] at hsame
      exact .inl (hsame.trans hrow)
    · rw [gone] at hnone
      rw [hrow] at hnm
      cases hkey
      cases hnm
      exact .inr ⟨hnone, events, clock, rfl, event, hev, rfl, rfl⟩

end

theorem receive_repeated (ctx : Context) (hsourced : Sourced s) (hcnt : Counted s) {actor : NodeId}
    {input : EventInput} {clock : Clock} {id : String} (hrow : s.source.get (ref, input.sourceId) = some id) :
    ∃ event, s.event.get (ref, id) = some event ∧ event.sourceId = input.sourceId ∧
      committed s (receive ctx actor ref input clock s) = s ∧
      (requireOwner ctx ref.owner = .ok () → requireEndpoint ctx actor = .ok () → input.sourceId ≠ "" →
        receive ctx actor ref input clock s = .ok (event, s)) := by
  obtain ⟨hid, event, hev, hsrc⟩ := hsourced ref input.sourceId id hrow
  refine ⟨event, hev, hsrc, ?_, ?_⟩
  · cases hrecv : receive ctx actor ref input clock s with
    | error => rfl
    | ok =>
      rcases receive_ok hrecv with hsame | ⟨resource, -, hnew, -⟩
      · exact hsame
      · rw [hrow] at hnew
        simp [hid] at hnew
  · intro hown hendpoint hsourceId
    obtain ⟨resource, _, _, hrsc, -⟩ := hcnt _ _ _ hev
    have hfilter : (some id).filter (fun eventId => eventId ≠ "") = some id := by
      simp [Option.filter, hid]
    simp only [receive, bind_eq_ok, requireValue_eq_ok]
    refine ⟨(), hown, (), hendpoint, (), by simp [failIf, hsourceId], resource, hrsc, ?_⟩
    rw [hrow, hfilter]
    exact bind_eq_ok.mpr ⟨event, requireValue_eq_ok.mpr hev, rfl⟩

end Step

/-! ## Every run -/

structure Logs (n : Node) : Prop where
  filed : Filed n.store.event
  counted : Counted n.store
  sourced : Sourced n.store
  readable : Readable n.store
  retiring : ∀ events, .retire events ∈ n.tasks ∨ .forget events ∈ n.tasks →
    ∀ event ∈ events, n.store.event.get event.key = some event.marked

section Runs

variable {ctx : Context} {n n' : Node} {a : Act}
  {events : List ResourceEvent} {h : List (Transition Node Act)} {s' s : Store} {ref : ResourceRef}

theorem Logs.retiring_step (hlogs : Logs n) (hstep : step ctx n a = some n')
    (htask : .retire events ∈ n'.tasks ∨ .forget events ∈ n'.tasks) :
    ∀ event ∈ events, n'.store.event.get event.key = some event.marked := by
  -- A mark stays.
  have hkept (hold : .retire events ∈ n.tasks ∨ .forget events ∈ n.tasks) :
      ∀ event ∈ events, n'.store.event.get event.key = some event.marked := by
    intro event hev
    have hmark := hlogs.retiring events hold event hev
    rcases (step_change hstep).log.event hlogs.filed hlogs.counted hmark with hsame | ⟨hnot, -⟩
    · exact hsame
    · cases hnot
  have hnew {task : Task} (hst : Starts ctx n a n'.store task) (heq : task = .retire events ∨ task = .forget events) :
      ∀ event ∈ events, n'.store.event.get event.key = some event.marked := by
    generalize n'.store = s' at hst hkept
    cases hst with
    | operate | recover | probe => simp at heq
    | advance waiting resumes =>
      cases resumes with
      | retires scan =>
        obtain heq | heq := heq
        · cases heq
          exact fun event hev => ((expireEvents_spec hlogs.filed scan).2 event hev).2.2
        · cases heq
      | retired =>
        obtain heq | heq := heq
        · cases heq
        · cases heq
          exact hkept (.inl waiting)
      | _ => simp at heq
  rcases htask with hretire | hforget
  · rcases step_tasks hstep hretire with hold | hst
    · exact hkept (.inl hold)
    · exact hnew hst (.inl rfl)
  · rcases step_tasks hstep hforget with hold | hst
    · exact hkept (.inr hold)
    · exact hnew hst (.inr rfl)

theorem Logs.kept (hlogs : Logs n) (hstep : step ctx n a = some n') : Logs n' := by
  have hlog := (step_change hstep).log
  exact ⟨hlog.filed hlogs.filed, hlog.counted hlogs.filed hlogs.counted,
    hlog.sourced hlogs.filed hlogs.counted hlogs.sourced, hlog.readable hlogs.readable,
    fun _ htask => hlogs.retiring_step hstep htask⟩

theorem logs_empty : Logs {} where
  filed key event hrow := by cases hrow
  counted ref id event hrow := by cases hrow
  sourced ref source id hrow := by cases hrow
  readable ref resource hrow := by cases hrow
  retiring events htask := by simp at htask

theorem logs_of_run (hrun : Run (step ctx) {} h n) : Logs n :=
  hrun.invariant logs_empty fun _ _ _ hlogs hstep => hlogs.kept hstep

/-! ### Numbers without a gap -/

def StartsAtZero (h : List (Transition Node Act)) (ref : ResourceRef) : Prop :=
  ∀ t ∈ h, t.before.store.resource.get ref = none → ∀ resource,
    t.after.store.resource.get ref = some resource → decimal resource.eventSeq = .ok 0

def Full (s : Store) (ref : ResourceRef) : Prop :=
  ∀ resource last number, s.resource.get ref = some resource → decimal resource.eventSeq = .ok last →
    1 ≤ number → number ≤ last → s.event.get (ref, toString number) ≠ none

/-- The counter of a resource stays, or moves on with the event of its next number. -/
theorem LogChange.counter_back (h : LogChange ctx s a s') {resource resource' : Resource}
    (hrow : s.resource.get ref = some resource) (hrow' : s'.resource.get ref = some resource') :
    resource'.eventSeq = resource.eventSeq ∨ ∃ last, decimal resource.eventSeq = .ok last ∧
      resource'.eventSeq = toString (last + 1) ∧ s'.event.get (ref, toString (last + 1)) ≠ none := by
  cases h with
  | kept events sources seq =>
    have hsame := seq ref
    rw [hrow, hrow', map_some, map_some] at hsame
    exact .inl (Option.some.inj hsame)
  | registered free =>
    rcases get_put_cases hrow' with ⟨rfl, -⟩ | ⟨-, hold⟩
    · rw [free] at hrow
      cases hrow
    · rw [hrow] at hold
      cases hold
      exact .inl rfl
  | @appended _ _ _ _ _ _ last _ row seq new home source resources events =>
    rw [resources] at hrow'
    rcases get_put_cases hrow' with ⟨rfl, rfl⟩ | ⟨-, hold⟩
    · rw [hrow] at row
      cases row
      refine .inr ⟨last, seq, rfl, ?_⟩
      rw [events, get_put_self]
      simp
    · rw [hrow] at hold
      cases hold
      exact .inl rfl
  | expired scan resources | forgotten gone resources =>
    rw [resources, hrow] at hrow'
    cases hrow'
    exact .inl rfl

theorem Full.step (hfull : Full s ref) (h : LogChange ctx s a s') (hfiled : Filed s.event) (hcnt : Counted s)
    (hstart : s.resource.get ref = none → ∀ resource, s'.resource.get ref = some resource →
      decimal resource.eventSeq = .ok 0) : Full s' ref := by
  intro resource' last' number hrow' hseq' hpos hle
  cases hrow : s.resource.get ref with
  | none =>
    rw [hstart hrow resource' hrow'] at hseq'
    cases hseq'
    omega
  | some resource =>
    have hold (last : Nat) (hseq : decimal resource.eventSeq = .ok last) (hnum : number ≤ last) :
        s'.event.get (ref, toString number) ≠ none := by
      obtain ⟨event, hev⟩ := ne_none_iff_exists'.mp (hfull resource last number hrow hseq hpos hnum)
      rcases h.event hfiled hcnt hev with hsame | ⟨-, hmark⟩
      · rw [hsame]; simp
      · rw [hmark]; simp
    rcases h.counter_back hrow hrow' with hsame | ⟨last, hseq, hnext, hev⟩
    · exact hold last' (by rw [← hsame]; exact hseq') hle
    · rw [hnext, decimal_toString] at hseq'
      cases hseq'
      rcases Nat.lt_or_ge number (last + 1) with hlt | hge
      · exact hold last hseq (Nat.le_of_lt_succ hlt)
      · rw [show number = last + 1 by omega]
        exact hev

theorem full_of_run (hrun : Run (step ctx) {} h n) (hstart : StartsAtZero h ref) : Full n.store ref := by
  have hboth : Logs n ∧ Full n.store ref := by
    refine hrun.invariant_of (I := fun n => Logs n ∧ Full n.store ref) hstart
      ⟨logs_empty, fun _ _ _ hrow => by cases hrow⟩ ?_
    rintro n a n' ⟨hlogs, hfull⟩ hstep hstart
    exact ⟨hlogs.kept hstep, hfull.step (step_change hstep).log hlogs.filed hlogs.counted hstart⟩
  exact hboth.2

/-! ### Announcements -/

/-- The transition calls the retirement hook of the driver with these events. -/
def Announces (ctx : Context) (t : Transition Node Act) (events : List ResourceEvent) : Prop :=
  ∃ emitted, outputs ctx t = some emitted ∧ .retired events ∈ emitted

def Announced (ctx : Context) (h : List (Transition Node Act)) (events : List ResourceEvent) : Prop :=
  ∃ past t later, h = past ++ t :: later ∧ t.act = .advance (.retire events) (.hook none) ∧
    ∃ call ∈ past, Announces ctx call events

/-- A pass that waits for the hook has called it, and one that deletes source rows has seen the call
return. -/
structure Told (ctx : Context) (h : List (Transition Node Act)) (n : Node) : Prop where
  called : ∀ events, .retire events ∈ n.tasks → ∃ call ∈ h, Announces ctx call events
  returned : ∀ events, .forget events ∈ n.tasks → Announced ctx h events

theorem Announced.snoc (hann : Announced ctx h events) (t : Transition Node Act) : Announced ctx (h ++ [t]) events := by
  obtain ⟨past, returned, later, rfl, hact, hcall⟩ := hann
  exact ⟨past, returned, later ++ [t], by simp, hact, hcall⟩

theorem announces_of_scan {clock : Clock} (hstep : step ctx n (.advance .expire (.go clock)) = some n')
    (hscan : expireEvents ctx clock.first n.store = .ok (events, s')) (hdue : events ≠ []) :
    Announces ctx ⟨n, .advance .expire (.go clock), n'⟩ events := by
  obtain ⟨outcome, hres, -, -, houts⟩ := outcome_of_advance hstep
  cases hres
  refine ⟨_, houts, ?_⟩
  unfold expireStep
  rw [hscan]
  simp [hdue]

theorem Told.step (htold : Told ctx h n) (hstep : Onlyne.Resources.step ctx n a = some n') :
    Told ctx (h ++ [⟨n, a, n'⟩]) n' where
  called events htask := by
    rcases step_tasks hstep htask with hold | hnew
    · obtain ⟨call, hcall, hann⟩ := htold.called events hold
      exact ⟨call, mem_append_left _ hcall, hann⟩
    · generalize n'.store = s' at hnew
      cases hnew with
      | advance waiting resumes =>
        cases resumes with
        | retires scan due =>
          exact ⟨_, mem_append_right _ mem_cons_self, announces_of_scan hstep scan due⟩
  returned events htask := by
    rcases step_tasks hstep htask with hold | hnew
    · exact (htold.returned events hold).snoc _
    · generalize n'.store = s' at hnew
      cases hnew with
      | advance waiting resumes =>
        cases resumes with
        | retired =>
          obtain ⟨call, hcall, hann⟩ := htold.called events waiting
          exact ⟨h, _, [], rfl, rfl, call, hcall, hann⟩

theorem told_of_run (hrun : Run (step ctx) {} h n) : Told ctx h n := by
  refine hrun.induction_on (I := Told ctx) ⟨?_, ?_⟩ ?_
  · intro events htask
    cases htask
  · intro events htask
    cases htask
  · intro h n a n' _ htold hstep
    exact htold.step hstep

end Runs

/-- Over every interleaving of the calls of a node, with a retirement hook that may fail at any time: the
event ids of a resource registered with no events are exactly the numbers up to its counter; a row of the
log changes only by its event expiring; a receive whose source id has a source row returns the stored event
and leaves the rows; and a source row disappears only when its event has expired and was announced to the
retirement hook by a call that returned. -/
theorem event_log_kept (ctx : Context) {h : List (Transition Node Act)} {n : Node} (hrun : Run (step ctx) {} h n) :
    (∀ ref, StartsAtZero h ref → ∀ resource, n.store.resource.get ref = some resource →
      ∃ last, decimal resource.eventSeq = .ok last ∧ ∀ id, n.store.event.get (ref, id) ≠ none ↔
        ∃ number, 1 ≤ number ∧ number ≤ last ∧ id = toString number) ∧
    (∀ t ∈ h, ∀ key event, t.before.store.event.get key = some event → t.after.store.event.get key = some event ∨
        event.expired = false ∧ t.after.store.event.get key = some { event with expired := true }) ∧
    (∀ t ∈ h, ∀ actor ref input clock id, t.act = .receive actor ref input clock →
      t.before.store.source.get (ref, input.sourceId) = some id →
      ∃ event, t.before.store.event.get (ref, id) = some event ∧ event.sourceId = input.sourceId ∧
        t.after.store = t.before.store ∧
        (requireOwner ctx ref.owner = .ok () → requireEndpoint ctx actor = .ok () → input.sourceId ≠ "" →
          receive ctx actor ref input clock t.before.store = .ok (event, t.before.store))) ∧
    (∀ past t later, h = past ++ t :: later → ∀ ref source id, t.before.store.source.get (ref, source) = some id →
      t.after.store.source.get (ref, source) ≠ some id →
      t.after.store.source.get (ref, source) = none ∧
      ∃ events, Announced ctx past events ∧ ∃ event ∈ events, event.sourceId = source ∧
        t.before.store.event.get (ref, id) = some { event with expired := true }) := by
  have hat : ∀ t ∈ h, Logs t.before ∧ step ctx t.before t.act = some t.after := by
    intro t ht
    obtain ⟨past, future, rfl, hpast, hstep, -⟩ := hrun.of_mem ht
    exact ⟨logs_of_run hpast, hstep⟩
  have hlogs := logs_of_run hrun
  refine ⟨?_, ?_, ?_, ?_⟩
  · intro ref hstart resource hrow
    obtain ⟨last, hseq⟩ := hlogs.readable ref resource hrow
    refine ⟨last, hseq, fun id => ⟨?_, ?_⟩⟩
    · intro hsome
      obtain ⟨event, hev⟩ := ne_none_iff_exists'.mp hsome
      obtain ⟨resource', last', number, hrow', hseq', hnum⟩ := hlogs.counted ref id event hev
      rw [hrow] at hrow'
      cases hrow'
      rw [hseq] at hseq'
      cases hseq'
      exact ⟨number, hnum⟩
    · rintro ⟨number, hpos, hle, rfl⟩
      exact full_of_run hrun hstart resource last number hrow hseq hpos hle
  · intro t ht key event hev
    obtain ⟨hlogs, hstep⟩ := hat t ht
    exact (step_change hstep).log.event hlogs.filed hlogs.counted hev
  · intro t ht actor ref input clock id hact hrow
    obtain ⟨hlogs, hstep⟩ := hat t ht
    obtain ⟨event, hev, hsrc, hsame, hans⟩ := receive_repeated ctx hlogs.sourced hlogs.counted hrow
    refine ⟨event, hev, hsrc, ?_, hans⟩
    rw [hact] at hstep
    rw [← Option.some.inj hstep]
    exact hsame
  · intro past t later heq ref source id hrow hgone
    subst heq
    obtain ⟨hpast, hstep, -⟩ := hrun.split_at
    have hlogs := logs_of_run hpast
    rcases (step_change hstep).log.source hlogs.sourced hrow with hsame |
      ⟨hnone, events, clock, hact, event, hev, hkey, hsrc⟩
    · exact absurd hsame hgone
    · rw [hact] at hstep
      have hwait := mem_tasks_of_advance hstep
      have hmark := hlogs.retiring events (.inr hwait) event hev
      rw [hkey] at hmark
      exact ⟨hnone, events, (told_of_run hpast).returned events hwait, event, hev, hsrc, hmark⟩

open Scenario in
/-- An event expires, the driver is told, its source row goes; the platform event that comes again gets the
next number. -/
theorem event_log_kept_retired : ∃ h n, Run (step (context "hub")) {} h n ∧
      n.store.source.get (⟨"hub", "chat"⟩, "message") = some "2" ∧ ∃ past t later, h = past ++ t :: later ∧
        t.before.store.source.get (⟨"hub", "chat"⟩, "message") = some "1" ∧
        t.after.store.source.get (⟨"hub", "chat"⟩, "message") = none ∧
        ∃ events, Announced (context "hub") past events ∧ ∃ event ∈ events, event.sourceId = "message" := by
  let ref : ResourceRef := ⟨"hub", "chat"⟩
  let input : EventInput := ⟨"message", ⟨.null, rfl⟩, some deadline⟩
  let event : ResourceEvent := ⟨ref, "1", "message", ⟨.null, rfl⟩, "", deadline, false⟩
  let late : Clock := ⟨2000, 2000, 2000⟩
  obtain ⟨h, n, hrun, hagain, t, ht, hbef, haft⟩ := exists_run (step (context "hub")) {}
    [.register "hub" (resource "hub" "chat" "ann"), .receive "hub" ref input clock, .recover,
      .advance .expire (.go late), .advance (.retire [event]) (.hook none),
      .advance (.forget [event]) (.go late), .receive "hub" ref input late]
    (fun h n => n.store.source.get (ref, "message") = some "2" ∧
      ∃ t ∈ h, t.before.store.source.get (ref, "message") = some "1" ∧ t.after.store.source.get (ref, "message") = none)
    (by decide +kernel)
  obtain ⟨past, later, rfl⟩ := append_of_mem ht
  obtain ⟨-, events, hann, event, hev, hsrc, -⟩ :=
    (event_log_kept (context "hub") hrun).2.2.2 past t later rfl ref "message" "1" hbef (by rw [haft]; simp)
  exact ⟨_, n, hrun, hagain, past, t, later, rfl, hbef, haft, events, hann, event, hev, hsrc⟩

end Onlyne.Resources
