import Mathlib.Data.List.Nodup
import Mathlib.Data.List.Sort

/-!
# Keyed tables

A table is a list of rows in insertion order in which no two rows share a
key.  Insertion is the only partial operation; updates must leave keys alone
and deletions only drop rows, so uniqueness never has to be re-proved by a
caller.
-/

namespace Relational

/-- Rows in insertion order, pairwise distinct under `key`. -/
structure Table {ρ κ : Type} (key : ρ → κ) where
  rows : List ρ
  distinct : (rows.map key).Nodup

namespace Table

variable {ρ κ : Type} {key : ρ → κ}

instance : Membership ρ (Table key) where
  mem table row := row ∈ table.rows

variable {table extended : Table key} {row : ρ} {wanted : κ}
  {chosen condition : ρ → Bool} {change : ρ → ρ} {keepsKey : ∀ row, key (change row) = key row}

theorem mem_iff : row ∈ table ↔ row ∈ table.rows :=
  Iff.rfl

instance [DecidableEq ρ] (table : Table key) (row : ρ) : Decidable (row ∈ table) :=
  inferInstanceAs (Decidable (row ∈ table.rows))

@[ext] theorem ext {left right : Table key} (equality : left.rows = right.rows) : left = right := by
  cases left
  cases right
  cases equality
  rfl

instance [DecidableEq ρ] : DecidableEq (Table key) := fun left right =>
  decidable_of_iff (left.rows = right.rows) ⟨ext, fun equality => by rw [equality]⟩

/-- The table without rows. -/
def empty : Table key where
  rows := []
  distinct := by simp

instance : Inhabited (Table key) := ⟨empty⟩

@[simp] theorem rows_empty : (empty : Table key).rows = [] := rfl

@[simp] theorem not_mem_empty (row : ρ) : row ∉ (empty : Table key) := by
  simp [mem_iff]

theorem eq_of_key_eq {left right : ρ} (leftMember : left ∈ table)
    (rightMember : right ∈ table) (sameKey : key left = key right) : left = right :=
  List.inj_on_of_nodup_map table.distinct leftMember rightMember sameKey

/-- The row stored under a key. -/
def find? [DecidableEq κ] (table : Table key) (wanted : κ) : Option ρ :=
  table.rows.find? fun row => decide (key row = wanted)

theorem find?_eq_some_iff [DecidableEq κ] :
    table.find? wanted = some row ↔ row ∈ table ∧ key row = wanted := by
  constructor
  · intro found
    exact ⟨List.mem_of_find?_eq_some found, by
      simpa using List.find?_some found⟩
  · rintro ⟨member, rfl⟩
    cases search : table.find? (key row) with
    | none =>
      have absent := List.find?_eq_none.mp search row member
      simp at absent
    | some other =>
      have sameKey : key other = key row := by
        simpa using List.find?_some search
      rw [eq_of_key_eq (List.mem_of_find?_eq_some search) member sameKey]

theorem find?_eq_none_iff [DecidableEq κ] :
    table.find? wanted = none ↔ ∀ row ∈ table, key row ≠ wanted := by
  simp [find?, mem_iff]

/-- The rows a condition selects, in insertion order. -/
def select (table : Table key) (chosen : ρ → Bool) : List ρ :=
  table.rows.filter chosen

@[simp] theorem mem_select : row ∈ table.select chosen ↔ row ∈ table ∧ chosen row = true := by
  simp [select, mem_iff]

theorem mem_of_head?_select (first : (table.select chosen).head? = some row) :
    row ∈ table ∧ chosen row = true :=
  mem_select.mp (List.mem_of_head? first)

theorem head?_select_eq_none : (table.select chosen).head? = none ↔
      ∀ row ∈ table, chosen row = false := by
  simp [select, mem_iff]

/-- A condition that holds of one row at most finds it. -/
theorem head?_select_eq_some_iff (single : ∀ row ∈ table, ∀ other ∈ table, chosen row = true →
      chosen other = true → row = other) :
    (table.select chosen).head? = some row ↔ row ∈ table ∧ chosen row = true := by
  constructor
  · exact mem_of_head?_select
  rintro ⟨stored, held⟩
  cases first : (table.select chosen).head? with
  | none =>
    rw [head?_select_eq_none.mp first row stored] at held
    cases held
  | some other =>
    obtain ⟨otherStored, otherHeld⟩ := mem_of_head?_select first
    rw [single other otherStored row stored otherHeld held]

theorem nodup_select (table : Table key) (chosen : ρ → Bool) : (table.select chosen).Nodup :=
  (table.distinct.of_map key).filter chosen

/-- Tables that agree on the selected rows list them alike in the order of
their keys. -/
theorem insertionSort_select_eq {left right : Table key}
    {otherChosen : ρ → Bool} (ordered : κ → κ → Prop) [DecidableRel ordered]
    [Std.Total ordered] [IsTrans κ ordered] [Std.Antisymm ordered]
    (same : ∀ row, (row ∈ left ∧ chosen row = true) ↔ (row ∈ right ∧ otherChosen row = true)) :
    (left.select chosen).insertionSort (fun a b => ordered (key a) (key b)) =
      (right.select otherChosen).insertionSort
        fun a b => ordered (key a) (key b) := by
  have total : Std.Total fun a b => ordered (key a) (key b) :=
    ⟨fun a b => Std.Total.total (key a) (key b)⟩
  have transitive : IsTrans ρ fun a b => ordered (key a) (key b) :=
    ⟨fun a b c => IsTrans.trans (key a) (key b) (key c)⟩
  have permuted : (left.select chosen).Perm (right.select otherChosen) := by
    rw [List.perm_ext_iff_of_nodup (nodup_select _ _) (nodup_select _ _)]
    intro row
    rw [mem_select, mem_select]
    exact same row
  have sorted := List.pairwise_insertionSort
    fun a b => ordered (key a) (key b)
  refine List.Perm.eq_of_pairwise ?_ (sorted _) (sorted _)
    (((List.perm_insertionSort _ _).trans permuted).trans (List.perm_insertionSort _ _).symm)
  intro row other listed otherListed before after
  rw [List.mem_insertionSort, mem_select] at listed otherListed
  exact eq_of_key_eq listed.1 ((same other).mpr otherListed).1
    (Std.Antisymm.antisymm _ _ before after)

/-- Add a row whose key is not taken. -/
def insert? [DecidableEq κ] (table : Table key) (row : ρ) : Option (Table key) :=
  if fresh : key row ∈ table.rows.map key then
    none
  else
    some {
      rows := table.rows ++ [row]
      distinct := by
        rw [List.map_append, List.nodup_append]
        refine ⟨table.distinct, by simp, ?_⟩
        rintro taken member other last rfl
        rw [List.map_singleton, List.mem_singleton] at last
        exact fresh (last ▸ member) }

theorem insert?_eq_some_iff [DecidableEq κ] :
    table.insert? row = some extended ↔
      (∀ other ∈ table, key other ≠ key row) ∧ extended.rows = table.rows ++ [row] := by
  unfold insert?
  split
  · rename_i taken
    obtain ⟨other, member, sameKey⟩ := List.mem_map.mp taken
    constructor
    · intro impossible
      cases impossible
    · rintro ⟨free, _⟩
      exact (free other member sameKey).elim
  · rename_i free
    constructor
    · intro inserted
      cases inserted
      refine ⟨fun other member sameKey => free ?_, rfl⟩
      exact List.mem_map.mpr ⟨other, member, sameKey⟩
    · rintro ⟨_, rows⟩
      exact congrArg some (ext rows.symm)

theorem insert?_isSome_iff [DecidableEq κ] :
    (table.insert? row).isSome ↔ ∀ other ∈ table, key other ≠ key row := by
  unfold insert?
  split
  · rename_i taken
    obtain ⟨other, member, sameKey⟩ := List.mem_map.mp taken
    simpa using ⟨other, member, sameKey⟩
  · rename_i free
    simp only [Option.isSome_some, true_iff]
    intro other member sameKey
    exact free (List.mem_map.mpr ⟨other, member, sameKey⟩)

theorem mem_insert [DecidableEq κ] {other : ρ} (inserted : table.insert? row = some extended) :
    other ∈ extended ↔ other ∈ table ∨ other = row := by
  rw [mem_iff, (insert?_eq_some_iff.mp inserted).2]
  simp [mem_iff]

/-- Rewrite every row a condition selects.  The key of a row never changes. -/
def update (table : Table key) (chosen : ρ → Bool) (change : ρ → ρ)
    (keepsKey : ∀ row, key (change row) = key row) : Table key where
  rows := table.rows.map fun row => if chosen row then change row else row
  distinct := by
    have sameKeys :
        (table.rows.map fun row => if chosen row then change row else row).map
            key = table.rows.map key := by
      rw [List.map_map]
      apply List.map_congr_left
      intro row _
      by_cases selected : chosen row = true <;> simp [selected, keepsKey]
    rw [sameKeys]
    exact table.distinct

@[simp] theorem rows_update (table : Table key) (chosen : ρ → Bool)
    (change : ρ → ρ) (keepsKey : ∀ row, key (change row) = key row) :
    (table.update chosen change keepsKey).rows =
      table.rows.map fun row => if chosen row then change row else row := rfl

theorem mem_update : row ∈ table.update chosen change keepsKey ↔
      ∃ previous ∈ table, row = if chosen previous then change previous else previous := by
  simp only [mem_iff, rows_update, List.mem_map]
  exact exists_congr fun previous => and_congr_right fun _ => eq_comm

theorem mem_update_of_mem (chosen : ρ → Bool) (change : ρ → ρ)
    (keepsKey : ∀ row, key (change row) = key row) (member : row ∈ table) :
    (if chosen row then change row else row) ∈ table.update chosen change keepsKey :=
  mem_update.mpr ⟨row, member, rfl⟩

theorem mem_update_single {target : ρ} (stored : target ∈ table) (selected : chosen target = true)
    (only : ∀ other ∈ table, chosen other = true → key other = key target) :
    row ∈ table.update chosen change keepsKey ↔
      (row ∈ table ∧ key row ≠ key target) ∨ row = change target := by
  rw [mem_update]
  constructor
  · rintro ⟨previous, member, rfl⟩
    split
    · rename_i matched
      rw [eq_of_key_eq member stored (only previous member matched)]
      exact .inr rfl
    · rename_i unmatched
      refine .inl ⟨member, fun same => unmatched ?_⟩
      rw [eq_of_key_eq member stored same]
      exact selected
  · rintro (⟨member, different⟩ | rfl)
    · refine ⟨row, member, ?_⟩
      rw [if_neg fun matched => different (only row member matched)]
    · exact ⟨target, stored, by rw [if_pos selected]⟩

/-- A condition that an update does not affect selects the updated rows. -/
theorem select_update (table : Table key) (chosen : ρ → Bool) (change : ρ → ρ)
    (keepsKey : ∀ row, key (change row) = key row)
    (stable : ∀ row, condition (change row) = condition row) :
    (table.update chosen change keepsKey).select condition =
      (table.select condition).map fun row =>
        if chosen row then change row else row := by
  rw [select, rows_update, List.filter_map, select]
  congr 1
  apply List.filter_congr
  intro row _
  by_cases selected : chosen row = true
  · simp [selected, stable]
  · simp [selected]

theorem length_select_update (table : Table key) (chosen : ρ → Bool)
    (change : ρ → ρ) (keepsKey : ∀ row, key (change row) = key row)
    (stable : ∀ row, condition (change row) = condition row) :
    ((table.update chosen change keepsKey).select condition).length =
      (table.select condition).length := by
  rw [select_update table chosen change keepsKey stable, List.length_map]

theorem length_select_insert [DecidableEq κ]
    (inserted : table.insert? row = some extended) (condition : ρ → Bool) :
    (extended.select condition).length =
      (table.select condition).length + if condition row then 1 else 0 := by
  rw [select, (insert?_eq_some_iff.mp inserted).2, List.filter_append, List.length_append, select]
  by_cases counted : condition row = true <;> simp [counted]

/-- Drop every row a condition selects. -/
def delete (table : Table key) (chosen : ρ → Bool) : Table key where
  rows := table.rows.filter fun row => !chosen row
  distinct := table.distinct.sublist (List.filter_sublist.map key)

@[simp] theorem mem_delete : row ∈ table.delete chosen ↔ row ∈ table ∧ chosen row = false := by
  simp [mem_iff, delete]

theorem delete_eq_self (nothing : table.select chosen = []) : table.delete chosen = table := by
  ext1
  refine List.filter_eq_self.mpr fun row stored => ?_
  simpa using List.filter_eq_nil_iff.mp nothing row stored

theorem length_select_delete_le (table : Table key) (chosen condition : ρ → Bool) :
    ((table.delete chosen).select condition).length ≤ (table.select condition).length :=
  (List.filter_sublist.filter condition).length_le

/-- Rows with keys that were there before, or are among a few new ones, are at
most that many more. -/
theorem length_select_le {earlier later : Table key} {fresh : List κ}
    (known : ∀ row ∈ later, condition row = true →
      (∃ old ∈ earlier, condition old = true ∧ key old = key row) ∨ key row ∈ fresh) :
    (later.select condition).length ≤ (earlier.select condition).length + fresh.length := by
  have distinct : ((later.select condition).map key).Nodup :=
    later.distinct.sublist (List.filter_sublist.map key)
  have covered : (later.select condition).map key ⊆
      (earlier.select condition).map key ++ fresh := by
    intro wanted member
    obtain ⟨row, selected, rfl⟩ := List.mem_map.mp member
    obtain ⟨stored, counted⟩ := mem_select.mp selected
    rw [List.mem_append]
    rcases known row stored counted with ⟨old, oldStored, oldCounted, same⟩ |
      new
    · exact .inl (same ▸ List.mem_map_of_mem (mem_select.mpr ⟨oldStored, oldCounted⟩))
    · exact .inr new
  simpa using (List.subperm_of_subset distinct covered).length_le

theorem find?_delete [DecidableEq κ] (table : Table key) (chosen : ρ → Bool) (wanted : κ) :
    (table.delete chosen).find? wanted = (table.find? wanted).filter fun row => !chosen row := by
  cases search : table.find? wanted with
  | none =>
    rw [find?_eq_none_iff] at search
    rw [Option.filter_none, find?_eq_none_iff]
    intro row member
    exact search row (mem_delete.mp member).1
  | some row =>
    obtain ⟨member, rowKey⟩ := find?_eq_some_iff.mp search
    by_cases dropped : chosen row = true
    · simp only [Option.filter_some, dropped, Bool.not_true,
        Bool.false_eq_true, if_false, find?_eq_none_iff]
      intro other otherMember otherKey
      obtain ⟨stored, kept⟩ := mem_delete.mp otherMember
      have same : other = row := eq_of_key_eq stored member (otherKey.trans rowKey.symm)
      simp [same, dropped] at kept
    · simp only [Option.filter_some, Bool.not_eq_true _ ▸ dropped,
        Bool.not_false, if_true, find?_eq_some_iff, mem_delete]
      exact ⟨⟨member, trivial⟩, rowKey⟩

/-- Store a row under its key, in the place of the one that held it. -/
def put [DecidableEq κ] (table : Table key) (row : ρ) : Table key where
  rows := (table.delete fun other => decide (key other = key row)).rows ++ [row]
  distinct := by
    rw [List.map_append, List.nodup_append]
    refine ⟨(table.delete _).distinct, by simp, ?_⟩
    rintro taken member other last rfl
    obtain ⟨stored, storedMember, rfl⟩ := List.mem_map.mp member
    have kept := (mem_delete.mp storedMember).2
    simp only [decide_eq_false_iff_not] at kept
    exact kept (List.mem_singleton.mp last)

theorem mem_put [DecidableEq κ] {other : ρ} :
    other ∈ table.put row ↔ (other ∈ table ∧ key other ≠ key row) ∨ other = row := by
  simp [mem_iff, put, delete]

theorem exists_mem_put [DecidableEq κ] {stored : ρ} (member : stored ∈ table) (row : ρ) :
    ∃ version ∈ table.put row, key version = key stored := by
  by_cases same : key stored = key row
  · exact ⟨row, mem_put.mpr (.inr rfl), same.symm⟩
  · exact ⟨stored, mem_put.mpr (.inl ⟨member, same⟩), rfl⟩

@[simp] theorem find?_put_self [DecidableEq κ] (table : Table key) (row : ρ) :
    (table.put row).find? (key row) = some row :=
  find?_eq_some_iff.mpr ⟨mem_put.mpr (.inr rfl), rfl⟩

theorem find?_put_of_ne [DecidableEq κ] (table : Table key) (row : ρ)
    (different : wanted ≠ key row) : (table.put row).find? wanted = table.find? wanted := by
  ext found
  rw [find?_eq_some_iff, find?_eq_some_iff, mem_put]
  constructor
  · rintro ⟨⟨member, _⟩ | rfl, rfl⟩
    · exact ⟨member, rfl⟩
    · exact (different rfl).elim
  · rintro ⟨member, rfl⟩
    exact ⟨.inl ⟨member, different⟩, rfl⟩

/-! ## Rows of several kinds -/

section Parts

variable {σ κ' : Type} {part : ρ → Option σ} {own : σ → κ'}

private theorem sublist_filterMap (embed : κ' → κ) (keeps : ∀ row entry, part row = some entry →
      key row = embed (own entry)) (rows : List ρ) :
    (((rows.filterMap part).map own).map embed).Sublist (rows.map key) := by
  induction rows with
  | nil => exact List.Sublist.slnil
  | cons row rest induction =>
    cases found : part row with
    | none =>
      rw [List.filterMap_cons_none found, List.map_cons]
      exact induction.cons _
    | some entry =>
      rw [List.filterMap_cons_some found, List.map_cons, List.map_cons,
        List.map_cons, keeps row entry found]
      exact induction.cons_cons _

/-- The rows of one kind, as a table with keys of their own. -/
def parts (table : Table key) (part : ρ → Option σ) (own : σ → κ')
    (embed : κ' → κ) (keeps : ∀ row entry, part row = some entry →
      key row = embed (own entry)) : Table own where
  rows := table.rows.filterMap part
  distinct := List.Nodup.of_map embed
    (table.distinct.sublist (sublist_filterMap embed keeps table.rows))

theorem mem_parts {table : Table key} {embed : κ' → κ} {keeps : ∀ row entry, part row = some entry →
      key row = embed (own entry)} {entry : σ} :
    entry ∈ table.parts part own embed keeps ↔ ∃ row ∈ table, part row = some entry := by
  simp [mem_iff, parts]

end Parts

end Table

end Relational
