/-
Sqlate/ValueChannels.lean

The channels that rules notify on and monitors listen to, for values of a column.

There are two encoders.  The rule of a column with Notify has the server cast the
old value of an updated row to text and put an underscore and the identifier of the
column behind it.  `addValueMonitor` does so in the client, with the text of a
`QVariant`, whose braces it removes, by two calls of `QString::arg`.  They agree on
every UUID and every integer, and on a string exactly when it does not look like a
UUID in braces and no marker in it takes the place of the second argument
(`registersChannel_iff`).

The server writes a UUID without braces, and strings and integers as they are.
-/
import Sqlate.ProcessSteps
import Sqlate.Qt.PlaceMarkers
import Sqlate.SchemaStatements

namespace Sqlate

/-- A value of a column that may be monitored. -/
inductive MonitoredValue
  | string (s : QString)
  | uuid (u : QUuid)
  | integer (i : Int)
  deriving DecidableEq, Repr

namespace MonitoredValue

/-- `QVariant::toString`. -/
def toString : MonitoredValue → QString
  | string s => s
  | uuid u => u.toString
  | integer i => QString.numberInt i

/-- `CAST( ... AS text )` on the server. -/
def castText : MonitoredValue → QString
  | string s => s
  | uuid u => u.withoutBraces
  | integer i => QString.numberInt i

end MonitoredValue

/-- The channel that a rule notifies on when a row is updated.  `foldName` is what the
server makes of a name without quotes, and `old` is the row before the update. -/
def RuleAction.channel (foldName : QString → QString) (old : QString → MonitoredValue) :
    RuleAction → QString
  | notify channel => foldName channel
  | pgNotify column identifier => (old column).castText ++ latin1 "_" ++ identifier

/-! ### The client -/

namespace Process

section
variable [HashFunction]

theorem percent_not_mem_createIdentifier (text : QString) :
    QString.percent ∉ createIdentifier text := fun h =>
  absurd (QString.mem_hexDigits_of_mem_numberHex h) (by decide)

theorem underscore_not_mem_createIdentifier (text : QString) :
    QString.underscore ∉ createIdentifier text := fun h =>
  absurd (QString.mem_hexDigits_of_mem_numberHex h) (by decide)

/-- What `addValueMonitor` leaves of the members of the monitor. -/
theorem monitor_addValueMonitor (m : Nat) (mon : SqlMonitor) (w : Process)
    (table column value : QString) :
    (w.addValueMonitor m mon table column value).monitor m
      = some { mon with
          monitoredValues := mon.monitoredValues ++ [valueNotification table column value] } := by
  rw [addValueMonitor]
  simp only [subscribe, subscribeToNotification]
  split_ifs <;> exact Function.update_self m _ w.monitor

/-- The markers of the text decide. -/
theorem valueNotification_eq_iff {value text : QString} (h : processedValue value = text)
    (table column : QString) :
    valueNotification table column value
        = text ++ latin1 "_" ++ createIdentifier (table ++ latin1 "_" ++ column) ↔
      ∀ n ∈ QString.placeMarkers text, 2 < n := by
  rw [valueNotification, h, List.append_assoc text]
  exact QString.arg_second_iff (percent_not_mem_createIdentifier _)
    (underscore_not_mem_createIdentifier _)

/-- Braces that are removed do not come back. -/
theorem openBrace_not_mem_valueNotification (table column : QString) {value : QString}
    (h : openBrace ∈ value ∧ closeBrace ∈ value) :
    openBrace ∉ valueNotification table column value := by
  have hprocessed : openBrace ∉ processedValue value := by
    rw [processedValue, if_pos h]
    simp
  have hidentifier : openBrace ∉ createIdentifier (table ++ latin1 "_" ++ column) := fun hmem =>
    absurd (QString.mem_hexDigits_of_mem_numberHex hmem) (by decide)
  rw [valueNotification, QString.arg_first]
  obtain ⟨n, -, -, harg⟩ := QString.arg_second (processedValue value)
    (createIdentifier (table ++ latin1 "_" ++ column))
  rw [harg, List.mem_append, not_or]
  constructor
  · intro hmem
    exact (QString.mem_of_mem_replaced _ _ hmem).elim hprocessed hidentifier
  · rw [List.mem_cons, not_or]
    refine ⟨by decide, ?_⟩
    split_ifs
    · exact hidentifier
    · decide

end

end Process

/-! ### Both encoders -/

namespace MonitoredValue

/-- A string without both kinds of braces, all of whose place markers have numbers
that are greater than two; or a value of another type. -/
def TextOnly : MonitoredValue → Prop
  | string s =>
      ¬ (openBrace ∈ s ∧ closeBrace ∈ s) ∧ ∀ n ∈ QString.placeMarkers s, 2 < n
  | uuid _ | integer _ => True

theorem processedValue_uuid (u : QUuid) : Process.processedValue u.toString = u.withoutBraces := by
  have hopen : openBrace ∈ u.toString := by
    rw [u.toString_eq]
    exact List.mem_append_left _ List.mem_cons_self
  have hclose : closeBrace ∈ u.toString := by
    rw [u.toString_eq]
    exact List.mem_append_right _ List.mem_cons_self
  rw [Process.processedValue, if_pos ⟨hopen, hclose⟩, u.toString_eq, List.filter_append,
    List.filter_append]
  have hinside : u.withoutBraces.filter (fun c => c ≠ openBrace ∧ c ≠ closeBrace)
      = u.withoutBraces := by
    rw [List.filter_eq_self]
    intro c hc
    have hne : c ≠ openBrace ∧ c ≠ closeBrace := QUuid.ne_brace_of_mem_withoutBraces hc
    simpa using hne
  rw [hinside]
  show [] ++ u.withoutBraces ++ [] = _
  rw [List.nil_append, List.append_nil]

theorem percent_not_mem_withoutBraces (u : QUuid) : QString.percent ∉ u.withoutBraces := by
  intro h
  rcases QUuid.mem_withoutBraces h with h | h
  · exact absurd h (by decide)
  · exact absurd h (by decide)

theorem mem_numberInt {i : Int} {c : QChar} (h : c ∈ QString.numberInt i) :
    c = QChar.ofChar '-' ∨ 48 ≤ c.val ∧ c.val ≤ 57 := by
  rw [QString.numberInt] at h
  split_ifs at h
  · rcases List.mem_append.mp h with h | h
    · exact .inl (List.mem_singleton.mp h)
    · exact .inr (QString.val_of_mem_number h)
  · exact .inr (QString.val_of_mem_number h)

theorem not_mem_numberInt {c : QChar} (hhyphen : c ≠ QChar.ofChar '-')
    (hdigit : ¬ (48 ≤ c.val ∧ c.val ≤ 57)) (i : Int) : c ∉ QString.numberInt i := fun h =>
  (mem_numberInt h).elim hhyphen hdigit

variable [HashFunction]

/-- **When both encoders give the same channel.** -/
theorem valueNotification_eq_channel_iff (table column : QString) (v : MonitoredValue) :
    Process.valueNotification table column v.toString
        = v.castText ++ latin1 "_" ++ Process.createIdentifier (table ++ latin1 "_" ++ column) ↔
      v.TextOnly := by
  cases v with
  | string s =>
      by_cases hbraces : openBrace ∈ s ∧ closeBrace ∈ s
      · refine iff_of_false (fun h => ?_) fun h => h.1 hbraces
        have hnone := Process.openBrace_not_mem_valueNotification table column hbraces
        change Process.valueNotification table column s = s ++ _ ++ _ at h
        rw [h] at hnone
        exact hnone (List.mem_append_left _ (List.mem_append_left _ hbraces.1))
      · have hprocessed : Process.processedValue s = s := by
          rw [Process.processedValue, if_neg hbraces]
        exact (Process.valueNotification_eq_iff hprocessed table column).trans
          (and_iff_right hbraces).symm
  | uuid u =>
      refine iff_of_true ?_ trivial
      refine (Process.valueNotification_eq_iff (processedValue_uuid u) table column).mpr ?_
      rw [QString.placeMarkers_of_not_mem (percent_not_mem_withoutBraces u)]
      exact fun n hn => absurd hn List.not_mem_nil
  | integer i =>
      have hopen : openBrace ∉ QString.numberInt i := not_mem_numberInt (by decide) (by decide) i
      have hprocessed : Process.processedValue (QString.numberInt i) = QString.numberInt i := by
        rw [Process.processedValue, if_neg fun h => hopen h.1]
      refine iff_of_true ?_ trivial
      refine (Process.valueNotification_eq_iff hprocessed table column).mpr ?_
      rw [QString.placeMarkers_of_not_mem (not_mem_numberInt (by decide) (by decide) i)]
      exact fun n hn => absurd hn List.not_mem_nil

end MonitoredValue

/-- What monitor `m` registers for the value of a column is the channel of the rule for
that column, when a row with this value is updated. -/
def RegistersChannel [HashFunction] (x : TableType × ColumnType) (u : QUuid)
    (foldName : QString → QString) (old : QString → MonitoredValue) (m : Nat) (mon : SqlMonitor)
    (w : Process) : Prop :=
  (w.addValueMonitor m mon x.1.sqlName x.2.sqlName (old x.2.sqlName).toString).monitor m
    = some { mon with
        monitoredValues :=
          mon.monitoredValues ++ [(columnNotificationRule x u).action.channel foldName old] }

/-- **What a monitor registers is what the rule notifies on**, for every UUID and every
integer, and for the strings that are nothing but text to the client. -/
theorem registersChannel_iff [HashFunction] (x : TableType × ColumnType) (u : QUuid)
    (foldName : QString → QString) (old : QString → MonitoredValue) (m : Nat) (mon : SqlMonitor)
    (w : Process) :
    RegistersChannel x u foldName old m mon w ↔ (old x.2.sqlName).TextOnly := by
  rw [← MonitoredValue.valueNotification_eq_channel_iff x.1.sqlName x.2.sqlName, RegistersChannel,
    Process.monitor_addValueMonitor]
  constructor
  · intro h
    have hvalues := congrArg SqlMonitor.monitoredValues (Option.some.inj h)
    exact (List.cons.inj (List.append_cancel_left hvalues)).1
  · intro h
    rw [h]
    rfl

/-- A table with a column of strings that is watched. -/
def watchedName : TableType × ColumnType :=
  let name : ColumnType := ⟨latin1 "name", ColumnProperties.notify⟩
  (⟨latin1 "person", false, false, false, true, true, true, latin1 "admins", latin1 "users", [name]⟩, name)

/-- **A name in braces**: the monitor listens without them. -/
theorem not_registersChannel_braces :
    let _ : HashFunction := ⟨fun _ => 0x6f3a1⟩
    let old : QString → MonitoredValue := fun _ => .string (latin1 "\x7ba\x7d")
    (Process.start.addValueMonitor 0 ⟨latin1 "db", [], []⟩ watchedName.1.sqlName
        watchedName.2.sqlName (old watchedName.2.sqlName).toString).monitor 0
      = some ⟨latin1 "db", [], [latin1 "a_6f3a1"]⟩ ∧
    (columnNotificationRule watchedName ⟨0⟩).action.channel id old = latin1 "\x7ba\x7d_6f3a1" ∧
    ¬ RegistersChannel watchedName ⟨0⟩ id old 0 ⟨latin1 "db", [], []⟩ Process.start := by
  intro _ old
  have hregistered : (Process.start.addValueMonitor 0 ⟨latin1 "db", [], []⟩ watchedName.1.sqlName
      watchedName.2.sqlName (old watchedName.2.sqlName).toString).monitor 0
        = some ⟨latin1 "db", [], [latin1 "a_6f3a1"]⟩ := by decide
  refine ⟨hregistered, by decide, fun h => ?_⟩
  rw [RegistersChannel, hregistered] at h
  exact absurd h (by decide)

end Sqlate
