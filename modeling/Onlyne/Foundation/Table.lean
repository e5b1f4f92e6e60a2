import Mathlib.Data.List.AList

/-!
# Keyed tables

A finite table holds at most one row for each key.  It is Mathlib's `AList` under the words a
row store uses for it: `get`, `put`, `delete`, a `rows` listing, and `deleteWhere` for a scan
that deletes the rows it selects.

The listing promises no order: two tables with the same rows may list them differently, so
nothing proved through `mem_rows` depends on the order of a scan.
-/

namespace Onlyne.Foundation

universe u v

abbrev Table (K : Type u) (V : Type v) : Type (max u v) :=
  AList (fun _ : K => V)

namespace Table

variable {K : Type u} {V : Type v}

def empty : Table K V := (∅ : AList (fun _ : K => V))

instance : EmptyCollection (Table K V) := ⟨empty⟩

instance : Inhabited (Table K V) := ⟨empty⟩

def rows (t : Table K V) : List (K × V) :=
  (AList.entries t).map fun r => (r.1, r.2)

/-- The rows that `p` does not select. -/
def deleteWhere (t : Table K V) (p : K → V → Bool) : Table K V where
  entries := (AList.entries t).filter fun r => !p r.1 r.2
  nodupKeys := (AList.nodupKeys t).sublist List.filter_sublist

def mapValues (t : Table K V) (f : V → V) : Table K V where
  entries := (AList.entries t).map fun r => ⟨r.1, f r.2⟩
  nodupKeys := by
    have hkeys : ((AList.entries t).map fun r => (⟨r.1, f r.2⟩ : Sigma fun _ : K => V)).map Sigma.fst =
        (AList.entries t).map Sigma.fst := by
      rw [List.map_map]
      rfl
    unfold List.NodupKeys List.keys
    rw [hkeys]
    exact AList.nodupKeys t

variable [DecidableEq K]

section

variable (t : Table K V) (k : K) (v : V)

/-- The row stored under `k`. -/
def get : Option V := AList.lookup k t

/-- Store `v` under `k`, replacing the row that was there. -/
def put : Table K V := AList.insert k v t

/-- Drop the row under `k`. -/
def delete : Table K V := AList.erase k t

/-! ## Reading back -/

@[simp] theorem get_empty : (∅ : Table K V).get k = none := rfl

@[simp] theorem get_put_self : (t.put k v).get k = some v :=
  AList.lookup_insert t

end

variable {k k' : K} {t : Table K V} {v : V} {p p' : K × V → Bool}

theorem get_put_ne (t : Table K V) (v : V) (h : k' ≠ k) : (t.put k v).get k' = t.get k' :=
  AList.lookup_insert_ne h

/-- A `put` changes the row of its own key and no other. -/
theorem get_put (t : Table K V) (k k' : K) (v : V) : (t.put k v).get k' = if k' = k then some v else t.get k' := by
  split_ifs with h
  · subst h
    exact get_put_self t k' v
  · exact get_put_ne t v h

@[simp] theorem put_put (t : Table K V) (k : K) (v v' : V) : (t.put k v).put k v' = t.put k v' :=
  AList.insert_insert t

@[simp] theorem get_delete_self (t : Table K V) (k : K) : (t.delete k).get k = none :=
  AList.lookup_erase k t

theorem get_delete_ne (t : Table K V) (h : k' ≠ k) : (t.delete k).get k' = t.get k' :=
  AList.lookup_erase_ne h

/-- A `delete` drops the row of its own key and no other. -/
theorem get_delete (t : Table K V) (k k' : K) : (t.delete k).get k' = if k' = k then none else t.get k' := by
  split_ifs with h
  · subst h
    exact get_delete_self t k'
  · exact get_delete_ne t h

/-- A row found after a put is the one put, or an old one under another key. -/
theorem get_put_cases {w : V} (h : (t.put k v).get k' = some w) : k' = k ∧ w = v ∨ k' ≠ k ∧ t.get k' = some w := by
  rw [get_put] at h
  split_ifs at h with hkey
  · cases h
    exact .inl ⟨hkey, rfl⟩
  · exact .inr ⟨hkey, h⟩

/-- What holds of the old rows and of the one put holds of the row found. -/
theorem of_put {P : K → V → Prop} (hold : ∀ k v, t.get k = some v → P k v) {w : V}
    (h : (t.put k v).get k' = some w) (hnew : P k v) : P k' w := by
  rcases get_put_cases h with ⟨rfl, rfl⟩ | ⟨-, h⟩
  · exact hnew
  · exact hold k' w h

/-- A row found after a delete is an old one under another key. -/
theorem get_of_delete {w : V} (h : (t.delete k).get k' = some w) : k' ≠ k ∧ t.get k' = some w := by
  rw [get_delete] at h
  split_ifs at h with hkey
  exact ⟨hkey, h⟩

/-! ## Scans -/

/-- A scan lists exactly the stored rows. -/
theorem mem_rows : (k, v) ∈ t.rows ↔ t.get k = some v := by
  unfold rows get
  rw [← Option.mem_def, AList.mem_lookup_iff, List.mem_map]
  constructor
  · rintro ⟨⟨a, b⟩, hmem, heq⟩
    cases heq
    exact hmem
  · intro hmem
    exact ⟨⟨k, v⟩, hmem, rfl⟩

omit [DecidableEq K] in
/-- A scan lists no key twice. -/
theorem rows_pairwise (t : Table K V) : t.rows.Pairwise fun r r' => r.1 ≠ r'.1 := by
  have hkeys : ((AList.entries t).map Sigma.fst).Nodup := AList.nodupKeys t
  exact List.Pairwise.map _ (fun _ _ hne => hne) (List.pairwise_map.mp hkeys)

/-- The values under the slots of one index. -/
theorem mem_part {ι : Type*} [DecidableEq ι] {t : Table (ι × K) V} {i : ι} :
    v ∈ (t.rows.filter fun row => row.1.1 = i).map Prod.snd ↔ ∃ n, t.get (i, n) = some v := by
  simp only [List.mem_map, List.mem_filter, Prod.exists, decide_eq_true_eq, exists_eq_right, mem_rows]
  constructor
  · rintro ⟨_, n, hrow, rfl⟩
    exact ⟨n, hrow⟩
  · rintro ⟨n, hrow⟩
    exact ⟨i, n, hrow, rfl⟩

/-- They differ in what the rest of the slot is read off. -/
theorem part_pairwise {ι : Type*} [DecidableEq ι] {t : Table (ι × K) V} (number : V → K)
    (h : ∀ slot v, t.get slot = some v → number v = slot.2) (i : ι) :
    ((t.rows.filter fun row => row.1.1 = i).map Prod.snd).Pairwise fun v w => number v ≠ number w := by
  rw [List.pairwise_map]
  refine (t.rows_pairwise.filter _).imp_of_mem fun {row row'} hmem hmem' hne heq => hne ?_
  obtain ⟨hrow, hi⟩ := List.mem_filter.mp hmem
  obtain ⟨hrow', hi'⟩ := List.mem_filter.mp hmem'
  rw [h _ _ (mem_rows.mp hrow), h _ _ (mem_rows.mp hrow')] at heq
  exact Prod.ext ((of_decide_eq_true hi).trans (of_decide_eq_true hi').symm) heq

/-- The row that is put is listed first. -/
theorem rows_put (t : Table K V) (k : K) (v : V) : (t.put k v).rows = (k, v) :: t.rows.eraseP fun r => k = r.1 := by
  unfold rows put
  rw [AList.entries_insert, List.map_cons, List.eraseP_map]
  rfl

/-- A row under a new key is listed before the others. -/
theorem rows_put_of_get_none (h : t.get k = none) (v : V) : (t.put k v).rows = (k, v) :: t.rows := by
  rw [rows_put, List.eraseP_of_forall_not]
  rintro ⟨k', v'⟩ hrow hkey
  cases of_decide_eq_true hkey
  rw [mem_rows.mp hrow] at h
  cases h

theorem rows_delete (t : Table K V) (k : K) : (t.delete k).rows = t.rows.eraseP fun r => k = r.1 := by
  unfold rows delete
  rw [List.eraseP_map]
  rfl

omit [DecidableEq K] in
/-- A filter does not see that a row it drops anyway is erased. -/
theorem filter_eraseP {q : K × V → Bool} (hdrop : ∀ r, q r = true → p r = false) (rows : List (K × V)) :
    (rows.eraseP q).filter p = rows.filter p := by
  induction rows with
  | nil => rfl
  | cons r rest ih =>
    rw [List.eraseP_cons]
    cases hq : q r with
    | true => rw [cond_true, List.filter_cons_of_neg (by simp [hdrop r hq])]
    | false => rw [cond_false, List.filter_cons, List.filter_cons, ih]

/-- A put is not seen through a filter that drops the rows of its key. -/
theorem filter_rows_put (hdrop : ∀ v, p (k, v) = false) (t : Table K V) (v : V) :
    (t.put k v).rows.filter p = t.rows.filter p := by
  rw [rows_put, List.filter_cons_of_neg (by simp [hdrop])]
  apply filter_eraseP
  rintro ⟨k', v'⟩ hkey
  cases of_decide_eq_true hkey
  exact hdrop v'

/-- A delete is not seen through a filter that drops the rows of its key. -/
theorem filter_rows_delete (hdrop : ∀ v, p (k, v) = false) (t : Table K V) :
    (t.delete k).rows.filter p = t.rows.filter p := by
  rw [rows_delete]
  apply filter_eraseP
  rintro ⟨k', v'⟩ hkey
  cases of_decide_eq_true hkey
  exact hdrop v'

omit [DecidableEq K] in
/-- Listings that agree through a filter agree through every finer one. -/
theorem filter_eq_of_filter_eq {q : K × V → Bool} {rows rows' : List (K × V)}
    (h : rows'.filter p' = rows.filter p) (hp : ∀ r ∈ rows, q r = true → p r = true)
    (hp' : ∀ r ∈ rows', q r = true → p' r = true) : rows'.filter q = rows.filter q := by
  have hfiner {p : K × V → Bool} {rows : List (K × V)}
      (hp : ∀ r ∈ rows, q r = true → p r = true) : rows.filter q = (rows.filter p).filter q := by
    rw [List.filter_filter]
    apply List.filter_congr
    intro r hr
    cases hq : q r with
    | false => rfl
    | true => rw [hp r hr hq]; rfl
  rw [hfiner hp', h, ← hfiner hp]

/-- Tables whose listings agree through a filter agree on every row the filter lets through. -/
theorem get_filter_eq {t' : Table K V} (h : t'.rows.filter p' = t.rows.filter p) {q : V → Bool}
    (hp : ∀ v, q v = true → p (k, v) = true) (hp' : ∀ v, q v = true → p' (k, v) = true) :
    (t'.get k).filter q = (t.get k).filter q := by
  ext v
  rw [Option.filter_eq_some_iff, Option.filter_eq_some_iff, ← mem_rows, ← mem_rows]
  constructor
  · rintro ⟨hrow, hq⟩
    have hmem : (k, v) ∈ t'.rows.filter p' := List.mem_filter.mpr ⟨hrow, hp' v hq⟩
    rw [h] at hmem
    exact ⟨(List.mem_filter.mp hmem).1, hq⟩
  · rintro ⟨hrow, hq⟩
    have hmem : (k, v) ∈ t.rows.filter p := List.mem_filter.mpr ⟨hrow, hp v hq⟩
    rw [← h] at hmem
    exact ⟨(List.mem_filter.mp hmem).1, hq⟩

/-- Tables whose listings agree through a filter agree on every key the filter lets through. -/
theorem get_eq_of_filter_eq {t' : Table K V} (h : t'.rows.filter p' = t.rows.filter p)
    (hp : ∀ v, p (k, v) = true) (hp' : ∀ v, p' (k, v) = true) : t'.get k = t.get k := by
  have hall (row : Option V) : row.filter (fun _ => true) = row := by
    cases row <;> rfl
  have hrow := get_filter_eq h (k := k) (q := fun _ => true) (fun v _ => hp v) (fun v _ => hp' v)
  rwa [hall, hall] at hrow

/-- Two tables whose listings are related row by row are still related after a put into both. -/
theorem forall₂_rows_put {W : Type v} {R : K × V → K × W → Prop} {t' : Table K W}
    (hkey : ∀ r r', R r r' → r'.1 = r.1) (h : List.Forall₂ R t.rows t'.rows) {w : W} (hnew : R (k, v) (k, w)) :
    List.Forall₂ R (t.put k v).rows (t'.put k w).rows := by
  rw [rows_put, rows_put]
  refine .cons hnew ?_
  generalize t.rows = rows at h
  generalize t'.rows = rows' at h
  induction h with
  | nil => exact .nil
  | @cons r r' rest rest' hr hrest ih =>
    rw [List.eraseP_cons, List.eraseP_cons, hkey r r' hr]
    cases decide (k = r.1) with
    | true => exact hrest
    | false => exact .cons hr ih

theorem length_le_rows {keys : List K} (hnodup : keys.Nodup)
    (hrows : ∀ k ∈ keys, ∃ v, t.get k = some v) : keys.length ≤ t.rows.length := by
  have hsub : keys ⊆ t.rows.map Prod.fst := by
    intro k hk
    obtain ⟨v, hv⟩ := hrows k hk
    exact List.mem_map.mpr ⟨(k, v), mem_rows.mpr hv, rfl⟩
  have hlen := (List.subperm_of_subset hnodup hsub).length_le
  rwa [List.length_map] at hlen

theorem get_deleteWhere (t : Table K V) (p : K → V → Bool) (k : K) :
    (t.deleteWhere p).get k = (t.get k).filter fun v => !p k v := by
  -- Both sides are compared through the membership of `⟨k, v⟩` among the kept entries.
  ext v
  have hmem : (t.deleteWhere p).get k = some v ↔ t.get k = some v ∧ p k v = false := by
    unfold get deleteWhere
    rw [← Option.mem_def, AList.mem_lookup_iff, ← Option.mem_def, AList.mem_lookup_iff]
    simp only [List.mem_filter, Bool.not_eq_eq_eq_not, Bool.not_true]
  rw [hmem, Option.filter_eq_some_iff]
  simp

@[simp] theorem get_mapValues (t : Table K V) (f : V → V) (k : K) : (t.mapValues f).get k = (t.get k).map f := by
  have hrows : (t.mapValues f).rows = t.rows.map fun r => (r.1, f r.2) := by
    simp only [rows, mapValues, List.map_map]
    rfl
  ext v
  rw [← mem_rows, hrows, List.mem_map, Option.map_eq_some_iff]
  constructor
  · rintro ⟨⟨k', v'⟩, hmem, heq⟩
    cases heq
    exact ⟨v', mem_rows.mp hmem, rfl⟩
  · rintro ⟨v', hget, rfl⟩
    exact ⟨(k, v'), mem_rows.mpr hget, rfl⟩

end Table

end Onlyne.Foundation
