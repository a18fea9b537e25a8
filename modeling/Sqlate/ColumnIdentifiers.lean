/-
Sqlate/ColumnIdentifiers.lean

The identifiers of columns in channels.

The identifier of a column is a hash of the names of its table and of itself with an
underscore between them, and both names may have underscores of their own.  Two columns
have the same identifier when their joined names are the same text, or have the same
hash; then a monitor of one hears of the other (`identifiersDiffer_iff`).
-/
import Sqlate.MonitorSignals

namespace Sqlate

/-- The names of a column and its table. -/
def columnName (x : TableType × ColumnType) : QString × QString := (x.1.sqlName, x.2.sqlName)

/-- What is hashed. -/
def joinedName (x : TableType × ColumnType) : QString :=
  x.1.sqlName ++ latin1 "_" ++ x.2.sqlName

def columnIdentifier [HashFunction] (x : TableType × ColumnType) : QString :=
  Process.createIdentifier (joinedName x)

/-- The name of the table of `y` goes on, behind the one of `x` and an underscore, with what
stands in front of the name of the column of `y`, and an underscore, in that of `x`. -/
def Overlaps (x y : TableType × ColumnType) : Prop :=
  ∃ m, y.1.sqlName = x.1.sqlName ++ latin1 "_" ++ m ∧ x.2.sqlName = m ++ latin1 "_" ++ y.2.sqlName

/-- **When the joined names are the same text.** -/
theorem joinedName_eq_iff (x y : TableType × ColumnType) :
    joinedName x = joinedName y ↔ columnName x = columnName y ∨ Overlaps x y ∨ Overlaps y x := by
  have hjoined : ∀ s t : QString, s ++ latin1 "_" ++ t = s ++ QString.underscore :: t := fun s t =>
    List.append_assoc _ _ _
  simp only [joinedName, columnName, Overlaps, hjoined, QString.append_cons_eq_iff, Prod.mk.injEq]

theorem Overlaps.columnName_ne {x y : TableType × ColumnType} (h : Overlaps x y) :
    columnName x ≠ columnName y := by
  obtain ⟨m, htable, -⟩ := h
  intro heq
  have hlength := congrArg List.length ((Prod.mk.inj heq).1.trans htable)
  simp only [latin1, List.length_append, List.length_map] at hlength
  have hunderscore : 0 < "_".toList.length := by decide
  omega

section
variable [HashFunction]

theorem columnIdentifier_eq_iff (x y : TableType × ColumnType) :
    columnIdentifier x = columnIdentifier y ↔
      HashFunction.qHash (joinedName x) = HashFunction.qHash (joinedName y) := by
  show QString.numberHex _ = QString.numberHex _ ↔ _
  rw [QString.numberHex_injective.eq_iff]
  exact UInt32.toNat_inj

variable [CaseFolding]

/-- The identifiers of the columns are different, and a monitor of a value of `x` does not
hear of the updates of a row with any value of `y`. -/
structure Separate (foldName : QString → QString) (x y : TableType × ColumnType) : Prop where
  identifier : columnIdentifier x ≠ columnIdentifier y
  signal : ∀ u old value m mon (w : Process),
    ((w.addValueMonitor m mon x.1.sqlName x.2.sqlName value).monitor m).map
        (·.notificationReceived ((columnNotificationRule y u).action.channel foldName old))
      = some (mon.notificationReceived ((columnNotificationRule y u).action.channel foldName old))

omit [CaseFolding] in
/-- What is registered for a column does not end in the identifier of another one. -/
theorem channel_ne_valueNotification {x y : TableType × ColumnType}
    (h : columnIdentifier x ≠ columnIdentifier y) (foldName : QString → QString) (u : QUuid)
    (old : QString → MonitoredValue) (value : QString) :
    (columnNotificationRule y u).action.channel foldName old
      ≠ Process.valueNotification x.1.sqlName x.2.sqlName value := by
  have hchannel : (columnNotificationRule y u).action.channel foldName old
      = (old y.2.sqlName).castText ++ QString.underscore :: columnIdentifier y :=
    List.append_assoc _ _ _
  obtain ⟨front, identifier, hnotification, hidentifier⟩ :=
    Process.valueNotification_eq_append x.1.sqlName x.2.sqlName value
  rw [hchannel, hnotification]
  intro heq
  rcases hidentifier with rfl | rfl
  · have hsame := (QString.append_cons_inj_of_not_mem
      (Process.underscore_not_mem_createIdentifier _)
      (Process.underscore_not_mem_createIdentifier _)).mp heq
    exact h hsame.2.symm
  · have hsame := (QString.append_cons_inj_of_not_mem
      (Process.underscore_not_mem_createIdentifier _) (by decide)).mp heq
    have hidentifier : columnIdentifier y = latin1 "%2" := hsame.2
    have hpercent : QString.percent ∉ columnIdentifier y :=
      Process.percent_not_mem_createIdentifier (joinedName y)
    rw [hidentifier] at hpercent
    exact hpercent List.mem_cons_self

theorem separate_iff (foldName : QString → QString) (x y : TableType × ColumnType) :
    Separate foldName x y ↔ columnIdentifier x ≠ columnIdentifier y := by
  constructor
  · exact fun h => h.identifier
  · intro h
    refine ⟨h, fun u old value m mon w => ?_⟩
    rw [Process.monitor_addValueMonitor, Option.map_some]
    -- one more value is looked up, which the notification is not
    have hne := channel_ne_valueNotification h foldName u old value
    simp only [SqlMonitor.notificationReceived_eq, List.mem_append, List.mem_singleton, hne, or_false]

/-- The identifiers of all columns with Notify are different. -/
def IdentifiersDiffer (foldName : QString → QString) (tables : List TableType) : Prop :=
  ∀ x ∈ notifyColumns tables, ∀ y ∈ notifyColumns tables, columnName x ≠ columnName y →
    Separate foldName x y

/-- **When the columns of a schema can be told apart**: no two columns with Notify have
names that overlap, and no two of the joined names have the same hash. -/
theorem identifiersDiffer_iff (foldName : QString → QString) (tables : List TableType) :
    IdentifiersDiffer foldName tables ↔
      ∀ x ∈ notifyColumns tables, ∀ y ∈ notifyColumns tables,
        ¬ Overlaps x y ∧
        (HashFunction.qHash (joinedName x) = HashFunction.qHash (joinedName y) →
          joinedName x = joinedName y) := by
  have hseparate : ∀ x y, Separate foldName x y ↔
      HashFunction.qHash (joinedName x) ≠ HashFunction.qHash (joinedName y) := fun x y => by
    rw [separate_iff, Ne, columnIdentifier_eq_iff]
  constructor
  · intro h x hx y hy
    constructor
    · intro hoverlaps
      have hsame := (joinedName_eq_iff x y).mpr (.inr (.inl hoverlaps))
      exact (hseparate x y).mp (h x hx y hy hoverlaps.columnName_ne) (by rw [hsame])
    · intro hhash
      by_contra hjoined
      have hne : columnName x ≠ columnName y := fun heq =>
        hjoined ((joinedName_eq_iff x y).mpr (.inl heq))
      exact (hseparate x y).mp (h x hx y hy hne) hhash
  · intro h x hx y hy hne
    rw [hseparate]
    intro hhash
    rcases (joinedName_eq_iff x y).mp ((h x hx y hy).2 hhash) with heq | hoverlaps | hoverlaps
    · exact hne heq
    · exact (h x hx y hy).1 hoverlaps
    · exact (h y hy x hx).1 hoverlaps

end

/-! ### Two columns -/

/-- A table with one column that has Notify. -/
def tableOfColumn (table column : QString) : TableType where
  sqlName := table
  isLookupTable := false
  isRelation := false
  isRestricted := false
  deleteRows := true
  updateRows := true
  insertRows := true
  adminGroup := latin1 "admins"
  userGroup := latin1 "users"
  columns := [⟨column, ColumnProperties.notify⟩]

def columnC : TableType × ColumnType :=
  (tableOfColumn (latin1 "a_b") (latin1 "c"), ⟨latin1 "c", ColumnProperties.notify⟩)

def columnBC : TableType × ColumnType :=
  (tableOfColumn (latin1 "a") (latin1 "b_c"), ⟨latin1 "b_c", ColumnProperties.notify⟩)

/-- **Column `c` of table `a_b` and column `b_c` of table `a`**: a monitor of `x` in the one
is notified of an update in the other. -/
theorem not_identifiersDiffer_underscores :
    let _ : HashFunction := ⟨fun s => s.foldl (fun h c => 31 * h + UInt32.ofNat c.val) 0⟩
    let _ : CaseFolding := .ascii
    ((Process.start.addValueMonitor 0 ⟨latin1 "db", [], []⟩ columnC.1.sqlName columnC.2.sqlName
        (latin1 "x")).monitor 0).map
        (·.notificationReceived ((columnNotificationRule columnBC ⟨0⟩).action.channel
          CaseFolding.toLower fun _ => .string (latin1 "x")))
      = some (some (.notify (latin1 "x_58392e8"))) ∧
    ¬ IdentifiersDiffer CaseFolding.toLower [columnC.1, columnBC.1] := by
  intro _ _
  refine ⟨by decide +kernel, fun h => ?_⟩
  have hseparate := h columnC (by decide) columnBC (by decide) (by decide)
  exact hseparate.identifier rfl

end Sqlate
