/-
Sqlate/SchemaPermissions.lean

What a user group may do after `grantPermissions`.

What a user group may do is said by the flags of its table (`TableType.Allows`).
The statements only grant.  A group has afterwards what it had before and what
it is granted (`privileges_foldl_exec`), and therefore exactly what the schema
allows if and only if it had no more than that before
(`privilegesAsAllowed_iff`).
-/
import Sqlate.SchemaStatements

namespace Sqlate

/-- What the schema allows the user group of a table: to read the rows, and to change them
as far as the table is not restricted and does not forbid it. -/
def TableType.Allows (t : TableType) : Privilege → Prop
  | .select => True
  | .delete => t.isRestricted = false ∧ t.deleteRows = true
  | .update => t.isRestricted = false ∧ t.updateRows = true
  | .insert => t.isRestricted = false ∧ t.insertRows = true
  | _ => False

/-- It is granted just that. -/
theorem TableType.mem_allowedOperations_iff (t : TableType) (p : Privilege) :
    p ∈ t.allowedOperations ↔ t.Allows p := by
  cases hrestricted : t.isRestricted with
  | true => cases p <;> simp [allowedOperations, Allows, hrestricted]
  | false => cases p <;> simp [allowedOperations, Allows, hrestricted]

section
variable [CaseFolding]

/-- Does a statement grant this privilege? -/
def SchemaStatement.grants (table group : QString) (p : Privilege) : SchemaStatement → Bool
  | grant operations t g => table = serverName t && group = serverName g && operations.contains p
  | _ => false

theorem privileges_foldl_exec (statements : List SchemaStatement) (c : Catalog) (table group : QString)
    (p : Privilege) :
    (statements.foldl Catalog.exec c).privileges table group p =
      (c.privileges table group p || statements.any (SchemaStatement.grants table group p)) := by
  induction statements generalizing c with
  | nil => simp
  | cons s statements ih =>
      rw [List.foldl_cons, ih, List.any_cons, ← Bool.or_assoc]
      cases s with
      | grant operations t g => rfl
      | _ => simp [Catalog.exec, SchemaStatement.grants]

/-- Every user group has exactly the privileges that are allowed. -/
def PrivilegesAsAllowed (tables : List TableType) (c : Catalog) : Prop :=
  ∀ t ∈ tables, ∀ p,
    c.privileges (serverName t.sqlName) (serverName t.userGroup) p = true ↔ t.Allows p

/-- The user group of a table has no privilege before that is not allowed, and no other
entry of the schema for this table gives it one. -/
structure NoMoreThanAllowed (tables : List TableType) (c : Catalog) (t : TableType) : Prop where
  before : ∀ p, c.privileges (serverName t.sqlName) (serverName t.userGroup) p = true → t.Allows p
  users : ∀ t' ∈ tables, serverName t.sqlName = serverName t'.sqlName →
    serverName t.userGroup = serverName t'.userGroup → ∀ p, t'.Allows p → t.Allows p
  admins : ∀ t' ∈ tables, serverName t.sqlName = serverName t'.sqlName →
    serverName t.userGroup = serverName t'.adminGroup →
      ∀ p ∈ [Privilege.select, .insert, .update, .delete], t.Allows p

/-- What the statements for a schema grant. -/
theorem any_grants_iff {tables : List TableType} {table group : QString} {p : Privilege} :
    (createPermissionStatements tables).any (SchemaStatement.grants table group p) = true ↔
      ∃ t ∈ tables, table = serverName t.sqlName ∧
        (group = serverName t.adminGroup ∧ p ∈ [Privilege.select, .insert, .update, .delete] ∨
          group = serverName t.userGroup ∧ t.Allows p) := by
  rw [createPermissionStatements, List.any_flatMap, List.any_eq_true]
  refine exists_congr fun t => and_congr_right fun _ => ?_
  simp only [TableType.permissionStatements, List.any_cons, List.any_nil, Bool.or_false, Bool.or_eq_true,
    SchemaStatement.grants, Bool.and_eq_true, decide_eq_true_eq, List.contains_iff_mem,
    TableType.mem_allowedOperations_iff]
  tauto

/-- **When the user groups have exactly what is allowed**: they had no more before. -/
theorem privilegesAsAllowed_iff {tables : List TableType} {c c' : Catalog}
    {fails : Nat → Option QString} (h : grantPermissions fails tables c = .ok c') :
    PrivilegesAsAllowed tables c' ↔ ∀ t ∈ tables, NoMoreThanAllowed tables c t := by
  have hrun := Catalog.execStatements_eq_ok h
  refine forall₂_congr fun t ht => ?_
  have hprivileges : ∀ p, c'.privileges (serverName t.sqlName) (serverName t.userGroup) p = true ↔
      c.privileges (serverName t.sqlName) (serverName t.userGroup) p = true ∨
        ∃ t' ∈ tables, serverName t.sqlName = serverName t'.sqlName ∧
          (serverName t.userGroup = serverName t'.adminGroup ∧
              p ∈ [Privilege.select, .insert, .update, .delete] ∨
            serverName t.userGroup = serverName t'.userGroup ∧ t'.Allows p) := by
    intro p
    rw [hrun, privileges_foldl_exec, Bool.or_eq_true, any_grants_iff]
  constructor
  · intro hallowed
    have hmore : ∀ p, c'.privileges (serverName t.sqlName) (serverName t.userGroup) p = true →
        t.Allows p := fun p => (hallowed p).1
    refine ⟨fun p hp => hmore p ((hprivileges p).2 (.inl hp)), ?_, ?_⟩
    · intro t' ht' htable hgroup p hp
      exact hmore p ((hprivileges p).2 (.inr ⟨t', ht', htable, .inr ⟨hgroup, hp⟩⟩))
    · intro t' ht' htable hgroup p hp
      exact hmore p ((hprivileges p).2 (.inr ⟨t', ht', htable, .inl ⟨hgroup, hp⟩⟩))
  · intro hnoMore p
    rw [hprivileges]
    constructor
    · rintro (hbefore | ⟨t', ht', htable, ⟨hgroup, hp⟩ | ⟨hgroup, hp⟩⟩)
      · exact hnoMore.before p hbefore
      · exact hnoMore.admins t' ht' htable hgroup p hp
      · exact hnoMore.users t' ht' htable hgroup p hp
    · intro hp
      exact .inr ⟨t, ht, rfl, .inr ⟨rfl, hp⟩⟩

end

/-! ### A table that is closed later -/

/-- A table that users may change. -/
def openTable : TableType where
  sqlName := latin1 "t"
  isLookupTable := false
  isRelation := false
  isRestricted := false
  deleteRows := true
  updateRows := true
  insertRows := true
  adminGroup := latin1 "admins"
  userGroup := latin1 "users"
  columns := []

/-- The same table, with `NO_USER_UPDATE`. -/
def closedTable : TableType := { openTable with updateRows := false }

def Catalog.empty : Catalog := ⟨fun _ => none, fun _ _ _ => false, fun _ => none⟩

/-- The privileges that the schema of the open table leaves. -/
def openCatalog [CaseFolding] : Catalog :=
  (createPermissionStatements [openTable]).foldl Catalog.exec .empty

theorem privilegesAsAllowed_iff_closedTable :
    let _ : CaseFolding := .ascii
    ∃ c', grantPermissions (fun _ => none) [closedTable] openCatalog = .ok c' ∧
      (PrivilegesAsAllowed [closedTable] c' ↔
        ∀ t ∈ [closedTable], NoMoreThanAllowed [closedTable] openCatalog t) := by
  intro _
  have hrun : grantPermissions (fun _ => none) [closedTable] openCatalog = .ok _ := rfl
  exact ⟨_, hrun, privilegesAsAllowed_iff hrun⟩

/-- Users may still update the rows. -/
theorem not_privilegesAsAllowed_closedTable :
    let _ : CaseFolding := .ascii
    ∃ c', grantPermissions (fun _ => none) [closedTable] openCatalog = .ok c' ∧
      serverName closedTable.adminGroup ≠ serverName closedTable.userGroup ∧
      c'.privileges (latin1 "t") (latin1 "users") .update = true ∧
      ¬ PrivilegesAsAllowed [closedTable] c' := by
  intro _
  refine ⟨_, rfl, by decide, by decide, ?_⟩
  intro h
  have hallows := (h closedTable (List.mem_singleton_self _) .update).1 (by decide)
  exact absurd hallows.2 (by decide)

end Sqlate
