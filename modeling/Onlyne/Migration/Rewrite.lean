import Onlyne.Messages.Node

/-!
# Migration: the rewrite of a store

`rewrite` of `migrate.ts` gives the rows of one owner to another.  Keys and values are rewritten by rules of their
own for every family of rows, and a row is never put in the place of another one.
-/

namespace Onlyne.Migration

open Foundation Table List
open Messages (ThreadRef MessageRef Member MemberState ReadScope Grant Store)

/-! ## Moving rows -/

section Move

variable {K V W : Type} [DecidableEq K] {path : K → String} {move : K → K} {change : K → V → W} {rows : Table K V}

def overwrites (path : String) : Failure :=
  onlyneError .invalidRequest ("The migration would overwrite an existing store row at " ++ path ++ ".")

/-- One row is put under its new key, unless another row is there or was there. -/
def moveRow (path : K → String) (move : K → K) (change : K → V → W) (rows : Table K V) (next : Table K W)
    (row : K × V) : Except Failure (Table K W) :=
  if move row.1 ≠ row.1 && ((next.get (move row.1)).isSome || (rows.get (move row.1)).isSome) then
    .error (overwrites (path (move row.1)))
  else .ok (next.put (move row.1) (change row.1 row.2))

def moveRows (path : K → String) (move : K → K) (change : K → V → W) (rows : Table K V) : Except Failure (Table K W) :=
  rows.rows.foldlM (moveRow path move change rows) ∅

structure Moved (move : K → K) (change : K → V → W) (rows : Table K V) (done : List (K × V)) (next : Table K W) :
    Prop where
  get : ∀ row ∈ done, next.get (move row.1) = some (change row.1 row.2)
  from_ : ∀ k w, next.get k = some w → ∃ row ∈ done, move row.1 = k ∧ change row.1 row.2 = w
  free : ∀ row ∈ done, move row.1 = row.1 ∨ rows.get (move row.1) = none

theorem Moved.step {done : List (K × V)} {next next' : Table K W} {row : K × V} (h : Moved move change rows done next)
    (hrow : rows.get row.1 = some row.2) (hnew : ∀ old ∈ done, old.1 ≠ row.1)
    (hstep : moveRow path move change rows next row = .ok next') : Moved move change rows (done ++ [row]) next' := by
  unfold moveRow at hstep
  split_ifs at hstep with htk
  cases hstep
  simp only [ne_eq, decide_not, Bool.and_eq_true, Bool.not_eq_eq_eq_not, Bool.not_true, decide_eq_false_iff_not,
    Bool.or_eq_true, not_and, not_or, Bool.not_eq_true, Option.isSome_eq_false_iff, Option.isNone_iff_eq_none] at htk
  have hoth : ∀ old ∈ done, move old.1 ≠ move row.1 := by
    intro old hold heq
    by_cases hmv : move row.1 = row.1
    · rcases h.free old hold with hsame | hnone
      · exact hnew old hold (by rw [← hsame, heq, hmv])
      · rw [heq, hmv, hrow] at hnone
        cases hnone
    · have hget := h.get old hold
      rw [heq, (htk hmv).1] at hget
      cases hget
  constructor
  · intro old hold
    rcases mem_append.mp hold with hold | hlast
    · rw [get_put_ne _ _ (hoth old hold)]
      exact h.get old hold
    · rw [mem_singleton.mp hlast, get_put_self]
  · intro k w hw
    rcases get_put_cases hw with ⟨rfl, rfl⟩ | ⟨-, hw⟩
    · exact ⟨row, by simp, rfl, rfl⟩
    · obtain ⟨old, hold, hfrom⟩ := h.from_ k w hw
      exact ⟨old, mem_append_left _ hold, hfrom⟩
  · intro old hold
    rcases mem_append.mp hold with hold | hlast
    · exact h.free old hold
    · rw [mem_singleton.mp hlast]
      by_cases hmv : move row.1 = row.1
      · exact .inl hmv
      · exact .inr (htk hmv).2

theorem moved_of_moveRows {next : Table K W} (h : moveRows path move change rows = .ok next) :
    Moved move change rows rows.rows next := by
  suffices hall : ∀ todo done acc, done ++ todo = rows.rows → Moved move change rows done acc →
      todo.foldlM (moveRow path move change rows) acc = .ok next → Moved move change rows rows.rows next from
    hall rows.rows [] ∅ rfl ⟨nofun, nofun, nofun⟩ h
  intro todo
  induction todo with
  | nil =>
    intro done acc hdone hmv hfold
    rw [append_nil] at hdone
    cases hfold
    rwa [← hdone]
  | cons row rest ih =>
    intro done acc hdone hmv hfold
    rw [foldlM_cons, bind_eq_ok] at hfold
    obtain ⟨acc', hstep, hfold⟩ := hfold
    refine ih (done ++ [row]) acc' (by simp [hdone]) (hmv.step ?_ ?_ hstep) hfold
    · exact mem_rows.mp (by rw [← hdone]; simp)
    · have hpw := rows.rows_pairwise
      rw [← hdone, pairwise_append] at hpw
      exact fun old hold => hpw.2.2 old hold row mem_cons_self

theorem moveRows_get {next : Table K W} (h : moveRows path move change rows = .ok next) {k : K} {v : V}
    (hrow : rows.get k = some v) : next.get (move k) = some (change k v) :=
  (moved_of_moveRows h).get (k, v) (mem_rows.mpr hrow)

end Move

/-! ## Names -/

/-- The owner a store is moved from, and the one it is moved to. -/
structure Owners where
  old : NodeId
  new : NodeId

section Names

variable (owners : Owners)

def mapId (id : NodeId) : NodeId := if id = owners.old then owners.new else id

def remapThread (ref : ThreadRef) : ThreadRef := { ref with owner := mapId owners ref.owner }

def remapReadScope (scope : ReadScope) : ReadScope :=
  { scope with peers := scope.peers.map fun peers => peers.map (mapId owners) }

def remapMember (member : Member) : Member :=
  { member with peer := mapId owners member.peer, readScope := remapReadScope owners member.readScope }

/-- A notice after a migration: one of a moved thread is issued again, and names the thread as its recipient knows
it. -/
structure Notice extends Grant where
  previousThreadRef : Option ThreadRef := none

def remapNotice (grant : Grant) : Notice where
  id := grant.id
  recipient := mapId owners grant.recipient
  threadRef := remapThread owners grant.threadRef
  revision := grant.revision
  acked := if grant.threadRef.owner = owners.old then false else grant.acked
  previousThreadRef := if grant.threadRef.owner = owners.old then some grant.threadRef else none

/-! ## The rows of threads -/

structure Migrated where
  member : Table (ThreadRef × NodeId) Member
  notice : Table String Notice

def ownRow {V : Type} (change : V → V) (owner : NodeId) (value : V) : V :=
  if owner = owners.old then change value else value

def moveMembers : Table (ThreadRef × NodeId) Member → Except Failure (Table (ThreadRef × NodeId) Member) :=
  moveRows (fun k => key ["member", k.1.owner, k.1.id, k.2]) (fun k => (remapThread owners k.1, k.2))
    fun k => ownRow owners (remapMember owners) k.1.owner

def moveNotices : Table String Grant → Except Failure (Table String Notice) :=
  moveRows (fun id => key ["notice", id]) id fun _ => remapNotice owners

def rewrite {D : Type} (s : Store D) : Except Failure Migrated := do
  let member ← moveMembers owners s.member
  let notice ← moveNotices owners s.notice
  .ok ⟨member, notice⟩

end Names

/-! ## Notices -/

section Notices

variable {D : Type} (owners : Owners) (s : Store D) (next : Migrated)

def Noticed : Set (NodeId × ThreadRef) :=
  { pair | ∃ id grant, s.notice.get id = some grant ∧ grant.threadRef.owner = owners.old ∧
    pair = (grant.recipient, grant.threadRef) }

def Joined : Set (NodeId × ThreadRef) :=
  { pair | ∃ ref peer member, s.member.get (ref, peer) = some member ∧ ref.owner = owners.old ∧
    member.state = .active ∧ (member.peer ≠ owners.old ∧ member.peer ≠ owners.new) ∧ pair = (member.peer, ref) }

/-- The peers with an unconfirmed notice that the migration issued again. -/
def Reissued : Set (NodeId × ThreadRef) :=
  { pair | ∃ id grant notice, s.notice.get id = some grant ∧ grant.threadRef.owner = owners.old ∧
    next.notice.get id = some notice ∧ notice.acked = false ∧ pair = (notice.recipient, notice.threadRef) }

def ActiveOthers : Set (NodeId × ThreadRef) :=
  { pair | ∃ ref peer old member, s.member.get (ref, peer) = some old ∧ ref.owner = owners.old ∧
    next.member.get (remapThread owners ref, peer) = some member ∧ member.state = .active ∧
    member.peer ≠ owners.new ∧ pair = (member.peer, remapThread owners ref) }

def remapPair (pair : NodeId × ThreadRef) : NodeId × ThreadRef := (mapId owners pair.1, remapThread owners pair.2)

variable {owners s next} {id : NodeId} {pair : NodeId × ThreadRef}

theorem mapId_ne_new : mapId owners id ≠ owners.new ↔ id ≠ owners.old ∧ id ≠ owners.new := by
  unfold mapId
  split_ifs with hold <;> simp [hold]

/-- A pair about another peer is told apart from every pair about a thread of the owner. -/
theorem remapPair_inj {pair' : NodeId × ThreadRef} (hown : pair.2.owner = owners.old)
    (hown' : pair'.2.owner = owners.old) (hpeer : pair'.1 ≠ owners.old ∧ pair'.1 ≠ owners.new)
    (heq : remapPair owners pair = remapPair owners pair') : pair = pair' := by
  obtain ⟨peer, ref⟩ := pair
  obtain ⟨peer', ref'⟩ := pair'
  obtain ⟨hid, hthr⟩ := Prod.mk.inj heq
  have hoth := mapId_ne_new.mp (hid ▸ mapId_ne_new.mpr hpeer)
  have hpeers : peer = peer' := by simpa [mapId, hoth.1, hpeer.1] using hid
  cases ref
  cases ref'
  cases hown
  cases hown'
  simp_all [remapThread]

section

variable (h : rewrite owners s = .ok next)
include h

theorem rewrite_ok : moveMembers owners s.member = .ok next.member ∧ moveNotices owners s.notice = .ok next.notice := by
  obtain ⟨member, hmemb, h⟩ := bind_eq_ok.mp h
  obtain ⟨notice, hnote, h⟩ := bind_eq_ok.mp h
  cases h
  exact ⟨hmemb, hnote⟩

theorem reissued_eq : Reissued owners s next = remapPair owners '' Noticed owners s := by
  have hmv {id : String} {grant : Grant} (hgr : s.notice.get id = some grant) :
      next.notice.get id = some (remapNotice owners grant) := moveRows_get (rewrite_ok h).2 hgr
  ext pair
  constructor
  · rintro ⟨id, grant, notice, hgr, hown, hnote, -, rfl⟩
    cases (hmv hgr).symm.trans hnote
    exact ⟨_, ⟨id, grant, hgr, hown, rfl⟩, rfl⟩
  · rintro ⟨_, ⟨id, grant, hgr, hown, rfl⟩, rfl⟩
    exact ⟨id, grant, _, hgr, hown, hmv hgr, if_pos hown, rfl⟩

theorem activeOthers_eq : ActiveOthers owners s next = remapPair owners '' Joined owners s := by
  have hmv {ref : ThreadRef} {peer : NodeId} {member : Member} (hmemb : s.member.get (ref, peer) = some member)
      (hown : ref.owner = owners.old) :
      next.member.get (remapThread owners ref, peer) = some (remapMember owners member) :=
    (moveRows_get (rewrite_ok h).1 hmemb).trans (by rw [ownRow, if_pos hown])
  ext pair
  constructor
  · rintro ⟨ref, peer, old, member, hold, hown, hmemb, hactv, hoth, rfl⟩
    cases (hmv hold hown).symm.trans hmemb
    exact ⟨_, ⟨ref, peer, old, hold, hown, hactv, mapId_ne_new.mp hoth, rfl⟩, rfl⟩
  · rintro ⟨_, ⟨ref, peer, old, hold, hown, hactv, hoth, rfl⟩, rfl⟩
    exact ⟨ref, peer, old, _, hold, hown, hmv hold hown, hactv, mapId_ne_new.mpr hoth, rfl⟩

end

theorem noticed_owner (h : pair ∈ Noticed owners s) : pair.2.owner = owners.old := by
  obtain ⟨id, grant, -, hown, rfl⟩ := h
  exact hown

theorem joined_owner (h : pair ∈ Joined owners s) :
    pair.2.owner = owners.old ∧ pair.1 ≠ owners.old ∧ pair.1 ≠ owners.new := by
  obtain ⟨ref, peer, member, -, hown, -, hoth, rfl⟩ := h
  exact ⟨hown, hoth⟩

end Notices

namespace Scenario

open Messages

/-- The node `n` moves to `m`. -/
def owners : Owners := ⟨"n", "m"⟩

/-- The owner adds `b` to its thread `t`, or revokes it. -/
def decides (state : MemberState) (key revision : String) : Call :=
  .member { actor := "n" } ⟨"n", "t"⟩ "b" { state := some (.known state) } ⟨key, "2030-01-01T00:00:00Z"⟩
    ⟨0, 0, 0, revision, [], none⟩

def opens : Call :=
  .create { actor := "n" } ⟨"1", "2030-01-01T00:00:00Z"⟩ "t" (some "t") false ⟨0, 0, 0, "", [], none⟩

end Scenario

end Onlyne.Migration
