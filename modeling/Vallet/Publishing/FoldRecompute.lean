import Vallet.Publishing.HandleEffects

/-!
# What the recompute pass does to the stored names

The pass gives the oldest row of each skeleton the skeleton as its fold and
holds the younger ones for review.  Its two loops are followed with a list of
the ids whose fold is still to be decided.
-/

namespace Vallet.Handle

instance : Std.Total older where
  total left right := by
    rcases lt_trichotomy left.createdAt right.createdAt with
      before | same | after
    · exact .inl (.inl before)
    · rcases List.le_total left.id right.id with first | second
      · exact .inl (.inr ⟨same, first⟩)
      · exact .inr (.inr ⟨same.symm, second⟩)
    · exact .inr (.inl after)

instance : IsTrans Handle older where
  trans first second third := by
    rintro (before | ⟨same, ordered⟩) (later | ⟨alike, next⟩)
    · exact .inl (before.trans later)
    · exact .inl (before.trans_eq alike)
    · exact .inl (same.trans_lt later)
    · exact .inr ⟨same.trans alike, List.le_trans ordered next⟩

end Vallet.Handle

namespace Vallet.Publishing

open Audit Auth Effects Effects.Program Relational HandleRepository

/-- An older row has a name that reads the same. -/
def Lookalike (folds : FoldTable) (handles : Table Handle.id) (row : Handle) : Prop :=
  ∃ other ∈ handles.rows, other.id ≠ row.id ∧ folds.skeleton other.name = folds.skeleton row.name ∧
    Handle.older other row

instance (folds : FoldTable) (handles : Table Handle.id) :
    DecidablePred (Lookalike folds handles) := fun _ =>
  inferInstanceAs (Decidable (∃ other ∈ handles.rows, _))

/-- A row of a later table that is held for review since the pass. -/
def Detained (folds : FoldTable) (initial : Table Handle.id) (row : Handle) : Prop :=
  ∃ old ∈ initial, Lookalike folds initial old ∧ row.id = old.id ∧
    row.name = old.name ∧ row.ownerID = old.ownerID ∧
    row.state = .quarantined ∧ row.quarantineUntil = none

/-! ## The pass -/

section Pass

variable {folds : FoldTable} {initial : Table Handle.id}

/-- A row during the pass, when the folds of the given ids are still to be
decided. -/
def RefoldedRow (folds : FoldTable) (initial : Table Handle.id)
    (pending : List HandleID) (row : Handle) : Prop :=
  ∃ old ∈ initial, row.id = old.id ∧ row.name = old.name ∧ row.ownerID = old.ownerID ∧
    ((row.state = old.state ∧ (row.id ∈ pending ∨
      row.nameFold = folds.skeleton row.name)) ∨ Detained folds initial row)

/-- The table during the pass, when the folds of the given ids are to be decided. -/
structure Refolded (folds : FoldTable) (initial : Table Handle.id)
    (pending : List HandleID) (handles : Table Handle.id) : Prop where
  unique : handles.Unique Handle.clashes
  rows : ∀ row ∈ handles, RefoldedRow folds initial pending row
  kept : ∀ old ∈ initial, ∃ row ∈ handles, row.id = old.id

variable {pending fewer others : List HandleID} {row : Handle} {id : HandleID}
  {change : Handle → Handle} {fold survivor : GoString} {version now : Int}
  {catalog : Catalog} {recomputer : Recomputer}
  {auditID : HandleID → AuditRecordID} {stale : List Handle}
  {keepsKey : ∀ row, (change row).id = row.id}

theorem refolded_initial (unique : initial.Unique Handle.clashes)
    (all : ∀ row ∈ initial, row.id ∈ pending) :
    Refolded folds initial pending initial where
  unique := unique
  rows row stored :=
    ⟨row, stored, rfl, rfl, rfl, .inl ⟨rfl, .inl (all row stored)⟩⟩
  kept row stored := ⟨row, stored, rfl⟩

theorem RefoldedRow.mono (refolded : RefoldedRow folds initial pending row)
    (covered : row.id ∈ pending → row.id ∈ fewer) : RefoldedRow folds initial fewer row := by
  obtain ⟨old, stored, id, name, owner, standing⟩ := refolded
  refine ⟨old, stored, id, name, owner, standing.imp_left ?_⟩
  rintro ⟨state, waiting | folded⟩
  · exact ⟨state, .inl (covered waiting)⟩
  · exact ⟨state, .inr folded⟩

/-- One row is changed, and its id need not be pending any longer. -/
theorem Refolded.update {handles : Table Handle.id}
    (refolded : Refolded folds initial pending handles)
    (unique : (handles.update (Handle.named id) change keepsKey).Unique
      Handle.clashes) (covered : ∀ other ∈ pending, other ≠ id → other ∈ fewer)
    (changes : ∀ row, row.id = id → RefoldedRow folds initial pending row →
      RefoldedRow folds initial fewer (change row)) :
    Refolded folds initial fewer (handles.update (Handle.named id) change keepsKey) where
  unique := unique
  rows row stored := by
    simp only [Table.mem_update] at stored
    obtain ⟨old, member, rfl⟩ := stored
    by_cases named : old.id = id
    · rw [if_pos (by simpa [Handle.named] using named)]
      exact changes old named (refolded.rows old member)
    · rw [if_neg (by simpa [Handle.named] using named)]
      exact (refolded.rows old member).mono fun waiting =>
        covered old.id waiting named
  kept old stored := by
    obtain ⟨row, member, same⟩ := refolded.kept old stored
    obtain ⟨later, laterMember, laterSame⟩ : ∃ later ∈ handles.update
        (Handle.named id) change keepsKey, later.id = row.id := by
      simp only [Table.mem_update]
      refine ⟨_, ⟨row, member, rfl⟩, ?_⟩
      split
      · exact keepsKey row
      · rfl
    exact ⟨later, laterMember, laterSame.trans same⟩

theorem RefoldedRow.folded (refolded : RefoldedRow folds initial pending row)
    (settled : row.id ∈ fewer ∨ ∀ old ∈ initial, old.id = row.id → fold = folds.skeleton old.name) :
    RefoldedRow folds initial fewer (row.folded fold version now) := by
  obtain ⟨old, stored, id, name, owner, standing⟩ := refolded
  refine ⟨old, stored, id, name, owner, ?_⟩
  rcases standing with ⟨state, _⟩ | detained
  · refine .inl ⟨state, settled.imp_right fun skeleton => ?_⟩
    exact (skeleton old stored id.symm).trans (congrArg folds.skeleton name.symm)
  · exact .inr detained

theorem RefoldedRow.demoted (refolded : RefoldedRow folds initial pending row)
    (younger : ∀ old ∈ initial, old.id = row.id → Lookalike folds initial old) :
    RefoldedRow folds initial fewer (row.quarantinedLookalike now) := by
  obtain ⟨old, stored, id, name, owner, _⟩ := refolded
  exact ⟨old, stored, id, name, owner, .inr ⟨old, stored,
    younger old stored id.symm, id, name, owner, rfl, rfl⟩⟩

theorem requireUpdated_ok {chosen : Handle → Bool} (updated : requireUpdated
      (.ok (catalog.updateHandles chosen change keepsKey).1) = .ok ()) :
    (catalog.updateHandles chosen change keepsKey).2 =
        { catalog with
          handles := catalog.handles.update chosen change keepsKey } ∧
      (catalog.handles.update chosen change keepsKey).Unique Handle.clashes := by
  unfold Catalog.updateHandles at updated ⊢
  split at updated
  · rename_i unique
    rw [if_pos unique]
    exact ⟨rfl, unique⟩
  · cases updated

theorem yields_setFold (refolded : Refolded folds initial pending catalog.handles)
    (covered : ∀ other ∈ pending, other ≠ id → other ∈ fewer) (settled : id ∈ fewer ∨
      ∀ old ∈ initial, old.id = id → fold = folds.skeleton old.name) :
    (setFold id fold version now).Yields handleInterpreter
      (fun _ final => Refolded folds initial fewer final.handles) catalog := by
  refine ⟨yields_error, fun _ updated => ?_⟩
  obtain ⟨same, unique⟩ := requireUpdated_ok updated
  simp only [handleInterpreter, HandleStatement.execute, same]
  refine refolded.update unique covered ?_
  rintro row rfl waiting
  exact waiting.folded settled

theorem yields_demote {loser : Handle} (refolded : Refolded folds initial pending catalog.handles)
    (covered : ∀ other ∈ pending, other ≠ loser.id → other ∈ fewer)
    (younger : ∀ old ∈ initial, old.id = loser.id → Lookalike folds initial old) :
    (recomputer.demote auditID now survivor loser).Yields handleInterpreter
      (fun _ final => Refolded folds initial fewer final.handles) catalog := by
  have held : (quarantineLookalike loser.id now).Yields handleInterpreter
      (fun _ final => Refolded folds initial fewer final.handles) catalog := by
    refine ⟨yields_error, fun _ updated => ?_⟩
    obtain ⟨same, unique⟩ := requireUpdated_ok updated
    simp only [handleInterpreter, HandleStatement.execute, same]
    refine refolded.update unique covered ?_
    rintro row named waiting
    refine waiting.demoted ?_
    rw [named]
    exact younger
  refine held.bind fun _ reached settled => ?_
  unfold Recomputer.emitQuarantine
  simp only
  split
  · exact yields_error
  refine (ensures_emit_catalog (fun _ _ => rfl) _ _ _ _ reached).mono
    fun emitted final cases _ _ => ?_
  rcases cases with ⟨_, rfl⟩ | ⟨_, _, _, _, _, _, rfl⟩
  all_goals exact settled

/-- The loop rule: the invariant speaks of what is still to be done. -/
theorem yields_each {α : Type} {body : α → Program HandleStatement (Except Err Unit)}
    {invariant : List α → Catalog → Prop} (step : ∀ first rest catalog,
      invariant (first :: rest) catalog →
      (body first).Yields handleInterpreter (fun _ => invariant rest) catalog)
    {todo : List α} (holds : invariant todo catalog) :
    (Recomputer.each body todo).Yields handleInterpreter (fun _ => invariant []) catalog := by
  induction todo generalizing catalog with
  | nil => exact yields_ok holds
  | cons first rest induction =>
    exact (step first rest catalog holds).bind fun _ _ continues => induction continues

/-- What is left to do while the younger rows of a group are held. -/
def Demoting (folds : FoldTable) (initial : Table Handle.id)
    (others : List HandleID) (losers : List Handle) (catalog : Catalog) : Prop :=
  (∀ loser ∈ losers, ∀ old ∈ initial, old.id = loser.id → Lookalike folds initial old) ∧
  Refolded folds initial (losers.map Handle.id ++ others) catalog.handles

theorem yields_demoteEach {losers : List Handle}
    (demoting : Demoting folds initial others losers catalog) :
    (Recomputer.each (recomputer.demote auditID now survivor) losers).Yields
      handleInterpreter (fun _ => Demoting folds initial others []) catalog := by
  refine yields_each ?_ demoting
  rintro loser rest reached ⟨younger, refolded⟩
  refine (yields_demote refolded ?_ (younger loser List.mem_cons_self)).mono
    fun _ final demoted => ⟨fun other listed => ?_, demoted⟩
  · intro other waiting different
    simpa [different] using waiting
  · exact younger other (List.mem_cons_of_mem _ listed)

/-- What the pass knows of a group: its rows have the skeleton, and each is
older than those after it. -/
structure Grouped (folds : FoldTable) (initial : Table Handle.id)
    (group : GoString × List Handle) : Prop where
  stored : ∀ row ∈ group.2, row ∈ initial
  skeleton : ∀ row ∈ group.2, folds.skeleton row.name = group.1
  sorted : group.2.Pairwise fun left right =>
    left.id ≠ right.id ∧ Handle.older left right

theorem yields_settleGroup {group : GoString × List Handle} (grouped : Grouped folds initial group)
    (refolded : Refolded folds initial (group.2.map Handle.id ++ others) catalog.handles) :
    (recomputer.settleGroup auditID now group).Yields handleInterpreter
      (fun _ final => Refolded folds initial others final.handles) catalog := by
  obtain ⟨skeleton, rows⟩ := group
  cases rows with
  | nil => exact yields_ok refolded
  | cons survivor losers =>
    have survives := grouped.stored survivor List.mem_cons_self
    obtain ⟨oldest, _⟩ := List.pairwise_cons.mp grouped.sorted
    have younger : ∀ loser ∈ losers, ∀ old ∈ initial, old.id = loser.id →
        Lookalike folds initial old := by
      intro loser listed old stored same
      have member : loser ∈ initial := grouped.stored loser (List.mem_cons_of_mem _ listed)
      obtain rfl := Table.eq_of_key_eq stored member same
      refine ⟨survivor, survives, (oldest old listed).1, ?_, (oldest old listed).2⟩
      exact (grouped.skeleton survivor List.mem_cons_self).trans
        (grouped.skeleton old (List.mem_cons_of_mem _ listed)).symm
    have folding : (setFold survivor.id skeleton recomputer.folds.version now).Yields
        handleInterpreter (fun _ final => Refolded folds initial
          (losers.map Handle.id ++ others) final.handles) catalog := by
      refine yields_setFold refolded ?_ (.inr ?_)
      · intro other waiting different
        simpa [different] using waiting
      · intro old stored same
        obtain rfl := Table.eq_of_key_eq stored survives same
        exact (grouped.skeleton old List.mem_cons_self).symm
    exact folding.bind fun _ reached continues =>
      (yields_demoteEach ⟨younger, continues⟩).mono fun _ final demoted => demoted.2

/-- What is left to do while the groups are settled. -/
def Settling (folds : FoldTable) (initial : Table Handle.id)
    (groups : List (GoString × List Handle)) (catalog : Catalog) : Prop :=
  (∀ group ∈ groups, Grouped folds initial group) ∧
  Refolded folds initial (groups.flatMap fun group => group.2.map Handle.id) catalog.handles

theorem yields_settleGroups {groups : List (GoString × List Handle)}
    (settling : Settling folds initial groups catalog) :
    (Recomputer.each (recomputer.settleGroup auditID now) groups).Yields
      handleInterpreter (fun _ => Settling folds initial []) catalog := by
  refine yields_each ?_ settling
  rintro group rest reached ⟨grouped, refolded⟩
  refine (yields_settleGroup (grouped group List.mem_cons_self) refolded).mono
    fun _ final settled => ⟨fun other listed => ?_, settled⟩
  exact grouped other (List.mem_cons_of_mem _ listed)

theorem grouped_group (stored : ∀ row ∈ stale, row ∈ initial)
    (sorted : stale.Pairwise fun left right =>
      left.id ≠ right.id ∧ Handle.older left right) (skeleton : GoString) :
    Grouped folds initial (skeleton, folds.group stale skeleton) where
  stored row listed := stored row (List.mem_filter.mp listed).1
  skeleton _ listed := of_decide_eq_true (List.mem_filter.mp listed).2
  sorted := sorted.filter _

theorem Catalog.mem_staleFolds : row ∈ catalog.staleFolds version ↔
      row ∈ catalog.handles ∧ row.foldVersion ≠ version := by
  rw [Catalog.staleFolds, List.mem_insertionSort, Table.mem_select, decide_eq_true_eq]

theorem Catalog.sorted_staleFolds (catalog : Catalog) (version : Int) :
    (catalog.staleFolds version).Pairwise fun left right =>
      left.id ≠ right.id ∧ Handle.older left right := by
  refine List.Pairwise.and ?_ (List.pairwise_insertionSort _ _)
  have distinct : ((catalog.handles.select fun handle =>
      decide (handle.foldVersion ≠ version)).map Handle.id).Nodup :=
    catalog.handles.distinct.sublist (List.filter_sublist.map _)
  have sorted := ((List.perm_insertionSort Handle.older _).map Handle.id).nodup_iff.mpr distinct
  exact List.pairwise_map.mp sorted

theorem mem_groups (folds : FoldTable) (listed : row ∈ stale) :
    row.id ∈ ((folds.order stale).map fun skeleton =>
      (skeleton, folds.group stale skeleton)).flatMap
        fun group => group.2.map Handle.id := by
  have seen : folds.skeleton row.name ∈ folds.order stale :=
    List.mem_eraseDups.mpr (List.mem_map_of_mem listed)
  refine List.mem_flatMap.mpr ⟨_, List.mem_map_of_mem seen, ?_⟩
  exact List.mem_map_of_mem (List.mem_filter.mpr ⟨listed, decide_eq_true rfl⟩)

theorem yields_placeholders (refolded : Refolded folds initial pending catalog.handles)
    (waiting : ∀ row ∈ stale, row.id ∈ pending) :
    (Recomputer.each (fun handle => setFold handle.id
      (foldPlaceholder handle.id) version now) stale).Yields
      handleInterpreter (fun _ final => Refolded folds initial pending final.handles) catalog := by
  induction stale generalizing catalog with
  | nil => exact yields_ok refolded
  | cons first rest induction =>
    exact (yields_setFold refolded (fun _ listed _ => listed)
      (.inl (waiting first List.mem_cons_self))).bind fun _ reached continues =>
        induction continues fun row listed => waiting row (List.mem_cons_of_mem _ listed)

theorem yields_settle (unique : catalog.handles.Unique Handle.clashes)
    (all : ∀ row, row ∈ stale ↔ row ∈ catalog.handles) (sorted : stale.Pairwise fun left right =>
      left.id ≠ right.id ∧ Handle.older left right) :
    (recomputer.settle auditID now stale).Yields handleInterpreter
      (fun _ final => Refolded recomputer.folds catalog.handles [] final.handles) catalog := by
  have start : Refolded recomputer.folds catalog.handles _ catalog.handles :=
    refolded_initial unique fun row stored =>
      mem_groups recomputer.folds ((all row).mpr stored)
  refine (yields_placeholders start fun row listed =>
    mem_groups recomputer.folds listed).bind fun _ reached cleared => ?_
  refine (yields_settleGroups ⟨?_, cleared⟩).mono fun _ final settled => settled.2
  intro group listed
  obtain ⟨skeleton, _, rfl⟩ := List.mem_map.mp listed
  exact grouped_group (fun row member => (all row).mp member) sorted skeleton

/-- A pass over a table of stale rows that is about to commit has decided the
fold of every row. -/
theorem yields_recomputeTx (recomputer : Recomputer)
    (auditID : HandleID → AuditRecordID) (now : Int) (catalog : Catalog)
    (unique : catalog.handles.Unique Handle.clashes) (stale : ∀ row ∈ catalog.handles,
      row.foldVersion ≠ recomputer.folds.version) :
    (recomputer.recomputeTx auditID now).Yields handleInterpreter
      (fun _ final => Refolded recomputer.folds catalog.handles [] final.handles) catalog := by
  have listing : (listStaleFolds recomputer.folds.version).Yields handleInterpreter
      (fun rows final => final = catalog ∧
        rows = catalog.staleFolds recomputer.folds.version) catalog :=
    ⟨yields_error, yields_ok ⟨rfl, rfl⟩⟩
  refine listing.bind ?_
  rintro _ _ ⟨rfl, rfl⟩
  refine yields_settle unique (fun row => ?_) (Catalog.sorted_staleFolds _ _)
  rw [Catalog.mem_staleFolds]
  exact ⟨fun listed => listed.1, fun stored => ⟨stored, stale row stored⟩⟩

theorem run_refolded {faulted : Bool} {plan : FaultPlan}
    (unique : catalog.handles.Unique Handle.clashes) (stale : ∀ row ∈ catalog.handles,
      row.foldVersion ≠ recomputer.folds.version)
    (passed : (recomputer.run auditID now faulted plan catalog).1 = .ok ()) :
    Refolded recomputer.folds catalog.handles []
      (recomputer.run auditID now faulted plan catalog).2.handles := by
  have listed : (listStaleFolds recomputer.folds.version).run handleInterpreter [faulted] catalog =
        (if faulted then .error driverFault
          else .ok (catalog.staleFolds recomputer.folds.version),
          catalog) := by
    cases faulted <;> rfl
  unfold Recomputer.run at passed ⊢
  rw [listed] at passed ⊢
  cases faulted with
  | true => cases passed
  | false =>
    cases rows : catalog.staleFolds recomputer.folds.version with
    | nil =>
      simp only [Bool.false_eq_true, if_false]
      refine refolded_initial unique fun row stored => ?_
      have missing := Catalog.mem_staleFolds.mpr ⟨stored, stale row stored⟩
      rw [rows] at missing
      cases missing
    | cons first rest =>
      simp only [rows, Bool.false_eq_true, if_false] at passed ⊢
      rcases transact_ensures driverFault (yields_recomputeTx recomputer auditID now catalog
        unique stale) plan with ⟨failure, failed⟩ | ⟨value, final, committed, refolded⟩
      · rw [failed] at passed
        cases passed
      · rw [committed]
        exact refolded

end Pass

end Vallet.Publishing
