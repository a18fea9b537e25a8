/-
Sqlate/ChangeFeed.lean

From a statement on the server to the signals of the monitors.

A program makes and destroys monitors, gives them tables and values, loses its
connections and gets them back, while its schema is updated again and again
(`ChangeFeed.step`).  When any client changes rows of a table, the server notifies on the
channels of its rules, the driver passes on what it is subscribed to, and the monitors
emit their signals (`ChangeFeed.Signals`).

What the program has asked for is a matter of its calls alone (`Watches.step`).  A monitor
emits the signals of what it was asked to watch, and no others, in any order of the
events, as long as its connection is there and no monitor unsubscribes from a value that
another one watches (`signals_iff`).
-/
import Mathlib.Data.Option.Basic
import Sqlate.Notifications
import Sqlate.RuleNotifications

namespace Sqlate

/-! ### The program and the database -/

/-- A program with its connections, and the database of its schema. -/
structure ChangeFeed where
  program : Except Stop Process
  schema : SchemaState

/-- Values are monitored by the typed call, with a column of the schema. -/
inductive FeedEvent
  | program (e : Process.Event)
  | addValueMonitor (m : Nat) (x : TableType × ColumnType) (v : MonitoredValue)
  | updateSchema (env : SchemaEnv)

def FeedEvent.env? : FeedEvent → Option SchemaEnv
  | updateSchema env => some env
  | _ => none

namespace ChangeFeed

def start : ChangeFeed := ⟨.ok .start, .new⟩

section
variable [CaseFolding] [HashFunction] [SqlDriver] (createUuid : Nat → QUuid) (tables : List TableType)

def step (s : ChangeFeed) : FeedEvent → ChangeFeed
  | .updateSchema env => { s with schema := Sqlate.updateSchema createUuid tables s.schema env }
  | .program e => { s with program := Process.next s.program e }
  | .addValueMonitor m x v =>
      { s with
        program := Process.next s.program
          (.addValueMonitor m x.1.sqlName x.2.sqlName v.toString) }

/-- The columns are those of the schema, their values are nothing but text, and no monitor
unsubscribes from what another list mentions. -/
def Admits (s : ChangeFeed) : FeedEvent → Prop
  | .updateSchema _ => True
  | .program e =>
      (∀ m table column value, e ≠ .addValueMonitor m table column value) ∧
        ∀ w, s.program = .ok w → w.UnsubscribesOwn e
  | .addValueMonitor _ x v => x ∈ columnsOf tables ∧ v.TextOnly

end

/-- Monitor `m` emits a signal when rows are changed. -/
def Signals [CaseFolding] (s : ChangeFeed) (change : Change) (m : Nat) (signal : MonitorSignal) :
    Prop :=
  ∃ w mon channel, s.program = .ok w ∧ w.monitor m = some mon ∧
    (w.session mon.connectionName).connected = true ∧ s.schema.catalog.Notifies change channel ∧
    channel ∈ w.subscribed mon.connectionName ∧ mon.notificationReceived channel = some signal

end ChangeFeed

/-! ### What is asked for -/

/-- What a monitor was asked to watch. -/
structure Watch where
  connectionName : QString
  tables : List QString
  values : List ((TableType × ColumnType) × MonitoredValue)

/-- The monitors by address. -/
abbrev Watches := Nat → Option Watch

def Watches.step (ws : Watches) : FeedEvent → Watches
  | .program (.newMonitor m c) =>
      if (ws m).isSome then ws else Function.update ws m (some ⟨c, [], []⟩)
  | .program (.setMonitorTables m tables) =>
      Function.update ws m ((ws m).map fun watch => { watch with tables := watch.tables ++ tables })
  | .program (.unsubscribeValuesNotifications m) =>
      Function.update ws m ((ws m).map fun watch => { watch with values := [] })
  | .program (.destroyMonitor m) => Function.update ws m none
  | .addValueMonitor m x v =>
      Function.update ws m ((ws m).map fun watch => { watch with values := watch.values ++ [(x, v)] })
  | _ => ws

section
variable [HashFunction]

/-- The signal for a value of a column. -/
def signalOf (x : (TableType × ColumnType) × MonitoredValue) : QString :=
  x.2.castText ++ latin1 "_" ++ columnIdentifier x.1

/-- What a monitor should tell of a change: that a table changed, if it watches the table
under any spelling, or that a row changed which has had a value that it watches. -/
def Watch.Hears [CaseFolding] (tables : List TableType) (watch : Watch) (change : Change) :
    MonitorSignal → Prop
  | .tablesChanged =>
      AnnouncesTable tables change.table ∧
        ∃ name ∈ watch.tables, CaseFolding.toLower name = change.table
  | .notify n =>
      ∃ x old, AnnouncesValue tables change x old ∧
        ∃ y ∈ watch.values, columnName y.1 = columnName x ∧
          y.2.castText = (old x.2.sqlName).castText ∧ n = signalOf y

end

/-! ### The monitors do what is asked for -/

section
variable [CaseFolding] [HashFunction]

/-- A monitor has got what it was asked to watch, in columns of the schema. -/
structure Watch.Records (tables : List TableType) (watch : Watch) (mon : SqlMonitor) : Prop where
  connectionName : mon.connectionName = watch.connectionName
  collects : Process.Collects ⟨watch.connectionName, [], []⟩ mon watch.tables
    (watch.values.map signalOf)
  columns : ∀ y ∈ watch.values, y.1 ∈ columnsOf tables

variable {tables : List TableType} {ws : Watches}

/-- One monitor changes. -/
theorem Watch.Records.update {f : Nat → Option SqlMonitor}
    (h : ∀ m, Option.Rel (Watch.Records tables) (ws m) (f m)) {k : Nat} {watch : Option Watch}
    {mon : Option SqlMonitor} (hk : Option.Rel (Watch.Records tables) watch mon) (m : Nat) :
    Option.Rel (Watch.Records tables) (Function.update ws k watch m) (Function.update f k mon m) := by
  by_cases hm : m = k
  · subst hm
    rw [Function.update_self, Function.update_self]
    exact hk
  · rw [Function.update_of_ne hm, Function.update_of_ne hm]
    exact h m

/-- A monitor that is there goes on. -/
theorem Watch.Records.map {f : Nat → Option SqlMonitor}
    (h : ∀ m, Option.Rel (Watch.Records tables) (ws m) (f m)) {k : Nat} {mon mon' : SqlMonitor}
    (hmon : f k = some mon) {g : Watch → Watch}
    (hg : ∀ watch : Watch, watch.Records tables mon → (g watch).Records tables mon') (m : Nat) :
    Option.Rel (Watch.Records tables) (Function.update ws k ((ws k).map g) m)
      (Function.update f k (some mon') m) := by
  apply Watch.Records.update h
  have hk := h k
  rw [hmon] at hk
  generalize ws k = watch at hk
  cases hk with
  | some hrecords => exact .some (hg _ hrecords)

/-- Nothing changes for a monitor that is not there. -/
theorem Watch.Records.absent {f : Nat → Option SqlMonitor}
    (h : ∀ m, Option.Rel (Watch.Records tables) (ws m) (f m)) {k : Nat} (hmon : f k = none)
    (g : Watch → Watch) (m : Nat) :
    Option.Rel (Watch.Records tables) (Function.update ws k ((ws k).map g) m) (f m) := by
  have hk := h k
  rw [hmon] at hk
  have hnone : ws k = none := by
    generalize ws k = watch at hk
    cases hk
    rfl
  rw [hnone, Option.map_none, ← hnone, Function.update_eq_self]
  exact h m

theorem Watch.Records.isSome_eq {w : Process} {m : Nat}
    (h : Option.Rel (Watch.Records tables) (ws m) (w.monitor m)) :
    (ws m).isSome = (w.monitor m).isSome := by
  generalize ws m = watch at h
  generalize w.monitor m = mon at h
  cases h with
  | none => rfl
  | some h => rfl

variable [SqlDriver]

/-- One operation of the program, typed calls apart. -/
theorem Watch.Records.step {w w' : Process} (hw : w.Orderly)
    (h : ∀ m, Option.Rel (Watch.Records tables) (ws m) (w.monitor m)) {e : Process.Event}
    (hplain : ∀ m table column value, e ≠ .addValueMonitor m table column value)
    (hstep : w.step e = .ok w') (m : Nat) :
    Option.Rel (Watch.Records tables) (ws.step (.program e) m) (w'.monitor m) := by
  cases he : e.onMonitor with
  | false =>
      rw [(Process.refreshed_step hw he hstep).monitor]
      cases e <;> first | exact h m | cases he
  | true =>
      cases e with
      | newMonitor k c =>
          simp only [Process.step, Process.newMonitor_eq hw.free] at hstep
          show Option.Rel _ ((if (ws k).isSome = true then ws else _) m) _
          rw [Watch.Records.isSome_eq (h k)]
          split_ifs at hstep ⊢
          · obtain rfl := Except.ok.inj hstep
            exact h m
          · obtain rfl := Except.ok.inj hstep
            refine Watch.Records.update h (.some ⟨rfl, .refl _, ?_⟩) m
            exact fun y hy => absurd hy List.not_mem_nil
      | setMonitorTables k names =>
          simp only [Process.step] at hstep
          split at hstep
          · next mon hmon =>
              obtain rfl := Except.ok.inj hstep
              obtain ⟨mon', hlistens⟩ := Process.listens_setMonitorTables hmon names
              obtain ⟨mon'', hmon'', hcollects⟩ := Process.collects_setMonitorTables hmon names
              obtain rfl : mon' = mon'' := by
                rw [hlistens.monitor, Function.update_self] at hmon''
                exact Option.some.inj hmon''
              rw [hlistens.monitor]
              apply Watch.Records.map h hmon
              intro watch hrecords
              refine ⟨?_, ?_, hrecords.columns⟩
              · rw [hlistens.connectionName]
                exact hrecords.connectionName
              · have htrans := hrecords.collects.trans hcollects
                rwa [List.append_nil] at htrans
          · next hmon =>
              obtain rfl := Except.ok.inj hstep
              exact Watch.Records.absent h hmon _ m
      | addValueMonitor k table column value => exact absurd rfl (hplain k table column value)
      | unsubscribeValuesNotifications k =>
          simp only [Process.step] at hstep
          split at hstep
          · next mon hmon =>
              obtain rfl := Except.ok.inj hstep
              rw [Process.unsubscribeValuesNotifications_eq]
              apply Watch.Records.map h hmon
              intro watch hrecords
              refine ⟨hrecords.connectionName, ⟨hrecords.collects.tables, rfl⟩, ?_⟩
              exact fun y hy => absurd hy List.not_mem_nil
          · next hmon =>
              obtain rfl := Except.ok.inj hstep
              exact Watch.Records.absent h hmon _ m
      | destroyMonitor k =>
          simp only [Process.step, Process.destroyMonitor_eq hw.free] at hstep
          split_ifs at hstep with hmon
          · obtain rfl := Except.ok.inj hstep
            exact Watch.Records.update h .none m
          · obtain rfl := Except.ok.inj hstep
            -- there is nothing to destroy
            have hnone : w.monitor k = none := Option.not_isSome_iff_eq_none.1 hmon
            rw [← Function.update_eq_self k w.monitor, hnone]
            exact Watch.Records.update h .none m
      | _ => cases he

/-- The typed call. -/
theorem Watch.Records.addValueMonitor {w w' : Process}
    (h : ∀ m, Option.Rel (Watch.Records tables) (ws m) (w.monitor m)) {k : Nat}
    {x : TableType × ColumnType} (hx : x ∈ columnsOf tables) {v : MonitoredValue} (hv : v.TextOnly)
    (hstep : w.step (.addValueMonitor k x.1.sqlName x.2.sqlName v.toString) = .ok w') (m : Nat) :
    Option.Rel (Watch.Records tables) (ws.step (.addValueMonitor k x v) m) (w'.monitor m) := by
  simp only [Process.step] at hstep
  split at hstep
  · next mon hmon =>
      obtain rfl := Except.ok.inj hstep
      obtain ⟨mon', hlistens⟩ :=
        Process.listens_addValueMonitor k mon w x.1.sqlName x.2.sqlName v.toString
      have hmon' := Process.monitor_addValueMonitor k mon w x.1.sqlName x.2.sqlName v.toString
      rw [hlistens.monitor, Function.update_self] at hmon'
      obtain rfl := Option.some.inj hmon'
      rw [hlistens.monitor]
      apply Watch.Records.map h hmon
      intro watch hrecords
      refine ⟨?_, ⟨hrecords.collects.tables, ?_⟩, ?_⟩
      · exact hrecords.connectionName
      · -- the text is the channel that the rule notifies on
        have hchannel : Process.valueNotification x.1.sqlName x.2.sqlName v.toString
            = signalOf (x, v) :=
          (MonitoredValue.valueNotification_eq_channel_iff x.1.sqlName x.2.sqlName v).2 hv
        show mon.monitoredValues ++ _ = _ ++ List.map signalOf (watch.values ++ [(x, v)])
        rw [hrecords.collects.values, hchannel, List.map_append, List.append_assoc]
        rfl
      · intro y hy
        rcases List.mem_append.1 hy with hold | hnew
        · exact hrecords.columns y hold
        · rw [List.mem_singleton.1 hnew]
          exact hx
  · next hmon =>
      obtain rfl := Except.ok.inj hstep
      exact Watch.Records.absent h hmon _ m

/-- The program has done what was asked for. -/
structure Follows (tables : List TableType) (w : Process) (ws : Watches) : Prop where
  orderly : w.Orderly
  notified : w.Notified
  records : ∀ m, Option.Rel (Watch.Records tables) (ws m) (w.monitor m)

theorem Follows.step {createUuid : Nat → QUuid} {s : ChangeFeed}
    (h : ∀ w, s.program = .ok w → Follows tables w ws) {e : FeedEvent} (he : s.Admits tables e)
    (w' : Process) (hw' : (s.step createUuid tables e).program = .ok w') :
    Follows tables w' (ws.step e) := by
  -- nothing follows a program that has stopped
  have hnext : ∀ {e' : Process.Event}, Process.next s.program e' = .ok w' →
      ∃ w, s.program = .ok w ∧ w.step e' = .ok w' := by
    intro e' hstep
    cases hprogram : s.program with
    | error x =>
        rw [hprogram] at hstep
        cases hstep
    | ok w =>
        rw [hprogram] at hstep
        exact ⟨w, rfl, hstep⟩
  cases e with
  | updateSchema env => exact h w' hw'
  | program e =>
      obtain ⟨w, hw, hstep⟩ := hnext hw'
      have hfollows := h w hw
      obtain ⟨hplain, hown⟩ := he
      refine ⟨Process.orderly_step hfollows.orderly hstep, ?_, ?_⟩
      · exact (Process.notified_step_iff hfollows.orderly hfollows.notified hstep).2 (hown w hw)
      · exact Watch.Records.step hfollows.orderly hfollows.records hplain hstep
  | addValueMonitor m x v =>
      obtain ⟨w, hw, hstep⟩ := hnext hw'
      have hfollows := h w hw
      refine ⟨Process.orderly_step hfollows.orderly hstep, ?_, ?_⟩
      · exact (Process.notified_step_iff hfollows.orderly hfollows.notified hstep).2 trivial
      · exact Watch.Records.addValueMonitor hfollows.records he.1 he.2 hstep

/-- **The program after any events** has done what its calls ask for. -/
theorem follows_run {createUuid : Nat → QUuid} {es : List FeedEvent}
    (hes : Runs.Along (ChangeFeed.step createUuid tables) (ChangeFeed.Admits tables) .start es)
    (w : Process) (hw : (Runs.run (ChangeFeed.step createUuid tables) .start es).program = .ok w) :
    Follows tables w (Runs.run Watches.step (fun _ => none) es) := by
  have hstart : ∀ w, ChangeFeed.start.program = .ok w → Follows tables w fun _ => none := by
    rintro w ⟨⟩
    exact ⟨Process.orderly_start, Process.notified_start, fun m => .none⟩
  have hrun : ∀ w, (Runs.run (ChangeFeed.step createUuid tables) .start es).program = .ok w →
      Follows tables w (Runs.run Watches.step (fun _ => none) es) :=
    Runs.run_related_along (R := fun s ws => ∀ w, s.program = .ok w → Follows tables w ws)
      (fun s ws e h he _ => Follows.step h he) hstart hes (Runs.along_true _ es)
  exact hrun w hw

/-- The database sees its own events only. -/
theorem ChangeFeed.schema_run (createUuid : Nat → QUuid) (tables : List TableType) (s : ChangeFeed)
    (es : List FeedEvent) :
    (Runs.run (step createUuid tables) s es).schema
      = Runs.run (Sqlate.updateSchema createUuid tables) s.schema (es.filterMap FeedEvent.env?) := by
  induction es generalizing s with
  | nil => rfl
  | cons e es ih =>
      rw [Runs.run_cons, ih]
      cases e <;> rfl

end

/-! ### What a monitor makes of a channel -/

section
variable [CaseFolding] [HashFunction] {tables : List TableType} {watch : Watch} {mon : SqlMonitor}

omit [CaseFolding] in
theorem signalOf_eq (x : (TableType × ColumnType) × MonitoredValue) :
    signalOf x = x.2.castText ++ QString.underscore :: columnIdentifier x.1 :=
  List.append_assoc _ _ _

omit [CaseFolding] in
/-- Values of one text in columns of one identifier have the same signal. -/
theorem signalOf_eq_iff {x y : (TableType × ColumnType) × MonitoredValue} :
    signalOf x = signalOf y ↔
      x.2.castText = y.2.castText ∧ columnIdentifier x.1 = columnIdentifier y.1 := by
  rw [signalOf_eq, signalOf_eq]
  exact QString.append_cons_inj_of_not_mem (Process.underscore_not_mem_createIdentifier _)
    (Process.underscore_not_mem_createIdentifier _)

/-- The channel of a table. -/
theorem Watch.Records.received_changed (hfolds : FoldsNames CaseFolding.toLower)
    (h : watch.Records tables mon) {table : QString} (htable : CaseFolding.toLower table = table)
    (signal : MonitorSignal) :
    mon.notificationReceived (table ++ latin1 "changed") = some signal ↔
      signal = .tablesChanged ∧ ∃ name ∈ watch.tables, CaseFolding.toLower name = table := by
  have hlower : CaseFolding.toLower (table ++ latin1 "changed") = table ++ latin1 "changed" := by
    rw [hfolds.toLower_append _ _ (by decide), htable]
    rfl
  -- no value is registered so
  have hvalue : table ++ latin1 "changed" ∉ mon.monitoredValues := by
    rw [h.collects.values]
    intro hmem
    obtain ⟨y, -, heq⟩ := List.mem_map.1 hmem
    rw [signalOf_eq] at heq
    refine identified_ne_changed (fun hg => ?_) heq
    exact absurd (QString.mem_hexDigits_of_mem_numberHex hg) (by decide)
  have hmem : table ++ latin1 "changed" ∈ mon.tables ↔
      ∃ name ∈ watch.tables, CaseFolding.toLower name = table := by
    rw [h.collects.tables, or_iff_right List.not_mem_nil]
    exact exists_congr fun name => and_congr_right fun _ => List.append_left_inj _
  rw [SqlMonitor.notificationReceived_eq, hlower, if_neg hvalue, ← hmem]
  split_ifs with hlisted
  · rw [Option.some_inj, and_iff_left hlisted]
    exact eq_comm
  · exact iff_of_false (fun heq => by cases heq) fun hsignal => hlisted hsignal.2

/-- The channel of a value. -/
theorem Watch.Records.received_value (hfolds : FoldsNames CaseFolding.toLower)
    (h : watch.Records tables mon) (x : (TableType × ColumnType) × MonitoredValue)
    (signal : MonitorSignal) :
    mon.notificationReceived (signalOf x) = some signal ↔
      signal = .notify (signalOf x) ∧ signalOf x ∈ watch.values.map signalOf := by
  have hdigits : ∀ c ∈ columnIdentifier x.1, c ∈ QString.hexDigits := fun c hc =>
    QString.mem_hexDigits_of_mem_numberHex hc
  -- no table is kept so
  have htable : CaseFolding.toLower (signalOf x) ∉ mon.tables := by
    rw [h.collects.tables, or_iff_right List.not_mem_nil, signalOf_eq,
      hfolds.toLower_identified hdigits]
    rintro ⟨name, -, heq⟩
    refine identified_ne_changed (fun hg => ?_) heq.symm
    exact absurd (hdigits _ hg) (by decide)
  have hvalues : mon.monitoredValues = watch.values.map signalOf := h.collects.values
  rw [SqlMonitor.notificationReceived_eq, if_neg htable, hvalues]
  split_ifs with hlisted
  · rw [Option.some_inj, and_iff_left hlisted]
    exact eq_comm
  · exact iff_of_false (fun heq => by cases heq) fun hsignal => hlisted hsignal.2

omit [HashFunction] in
/-- What a monitor emits is what it lists. -/
theorem SqlMonitor.mem_of_notificationReceived {n : QString} {signal : MonitorSignal}
    (hlower : CaseFolding.toLower n = n ∨ signal ≠ .tablesChanged)
    (h : mon.notificationReceived n = some signal) : n ∈ mon.tables ++ mon.monitoredValues := by
  rw [SqlMonitor.notificationReceived_eq] at h
  split_ifs at h with htable hvalue
  · rcases hlower with hlower | hlower
    · rw [hlower] at htable
      exact List.mem_append_left _ htable
    · exact absurd (Option.some.inj h).symm hlower
  · exact List.mem_append_right _ hvalue

end

/-! ### What is heard -/

section
variable [CaseFolding] [HashFunction] [SqlDriver] {createUuid : Nat → QUuid} {tables : List TableType}

/-- **What the monitors tell of a change.**  After any events, one of which was a run of the
schema that came to its end, a monitor emits a signal if and only if its connection is there
and it was asked to watch what the change is about. -/
theorem signals_iff (hfolds : FoldsNames CaseFolding.toLower) (hplain : PlainNames tables)
    (hdiffer : ∀ x ∈ columnsOf tables, ∀ y ∈ notifyColumns tables,
      columnIdentifier x = columnIdentifier y → columnName x = columnName y)
    {before after : List FeedEvent} {env : SchemaEnv} {s : SchemaState}
    (hes : Runs.Along (ChangeFeed.step createUuid tables) (ChangeFeed.Admits tables) .start
      (before ++ .updateSchema env :: after))
    (hok : createRulesPermissionsAndTriggers createUuid tables
      (Runs.run (ChangeFeed.step createUuid tables) .start before).schema env = .ok s)
    (hnew : Set.InjOn createUuid (Set.Iio (Runs.run (ChangeFeed.step createUuid tables) .start
      (before ++ .updateSchema env :: after)).schema.uuids))
    {w : Process} (hw : (Runs.run (ChangeFeed.step createUuid tables) .start
      (before ++ .updateSchema env :: after)).program = .ok w)
    (change : Change) (m : Nat) (signal : MonitorSignal) :
    (Runs.run (ChangeFeed.step createUuid tables) .start
        (before ++ .updateSchema env :: after)).Signals change m signal ↔
      ∃ watch,
        Runs.run Watches.step (fun _ => none) (before ++ .updateSchema env :: after) m = some watch ∧
        (w.session watch.connectionName).connected = true ∧ watch.Hears tables change signal := by
  have hfollows := follows_run hes w hw
  -- what the server notifies on
  have hnotifies : ∀ channel, (Runs.run (ChangeFeed.step createUuid tables) .start
      (before ++ .updateSchema env :: after)).schema.catalog.Notifies change channel ↔
        Announces tables change channel := by
    rw [ChangeFeed.schema_run] at hok hnew ⊢
    rw [List.filterMap_append, List.filterMap_cons] at hnew ⊢
    obtain ⟨honly, hall⟩ := onlyRulesOf_and_allRulesOf_run hfolds hplain hok hnew
    exact notifies_iff_of_rules hfolds hplain honly hall change
  have hlower : ∀ {table}, AnnouncesTable tables table → CaseFolding.toLower table = table := by
    rintro table ⟨t, ht, hannounced, rfl⟩
    rw [serverName_of_maxTableNameSize (hplain.unquoted t ht) (hplain.short t ht hannounced)]
    exact hfolds.toLower_foldName t.sqlName
  constructor
  · rintro ⟨w', mon, channel, hw', hmon, hconnected, hchannel, -, hsignal⟩
    obtain rfl := Except.ok.inj (hw'.symm.trans hw)
    have hrecords := hfollows.records m
    rw [hmon] at hrecords
    generalize hws : Runs.run Watches.step _ _ m = watch at hrecords
    cases hrecords with
    | @some watch mon hrecords =>
        refine ⟨watch, rfl, hrecords.connectionName ▸ hconnected, ?_⟩
        rcases (hnotifies channel).1 hchannel with ⟨htable, rfl⟩ | ⟨x, old, hvalue, rfl⟩
        · obtain ⟨rfl, hname⟩ := (hrecords.received_changed hfolds (hlower htable) signal).1 hsignal
          exact ⟨htable, hname⟩
        · obtain ⟨rfl, hmem⟩ := (hrecords.received_value hfolds (x, old x.2.sqlName) signal).1 hsignal
          obtain ⟨y, hy, heq⟩ := List.mem_map.1 hmem
          obtain ⟨htext, hidentifier⟩ := signalOf_eq_iff.1 heq
          refine ⟨x, old, hvalue, y, hy, ?_, htext, heq.symm⟩
          exact hdiffer y.1 (hrecords.columns y hy) x hvalue.2.1 hidentifier
  · rintro ⟨watch, hwatch, hconnected, hhears⟩
    have hrecords := hfollows.records m
    rw [hwatch] at hrecords
    generalize hmon : w.monitor m = mon at hrecords
    cases hrecords with
    | @some watch mon hrecords =>
        have hsubscribed := hfollows.notified m mon hmon
        rw [← hrecords.connectionName] at hconnected
        cases signal with
        | tablesChanged =>
            obtain ⟨htable, hname⟩ := hhears
            have hreceived := (hrecords.received_changed hfolds (hlower htable) .tablesChanged).2
              ⟨rfl, hname⟩
            refine ⟨w, mon, change.table ++ latin1 "changed", hw, hmon, hconnected, ?_, ?_, hreceived⟩
            · exact (hnotifies _).2 (.inl ⟨htable, rfl⟩)
            · apply hsubscribed
              apply SqlMonitor.mem_of_notificationReceived (.inl ?_) hreceived
              rw [hfolds.toLower_append _ _ (by decide), hlower htable]
              rfl
        | notify n =>
            obtain ⟨x, old, hvalue, y, hy, hname, htext, rfl⟩ := hhears
            have hidentifier : columnIdentifier y.1 = columnIdentifier x :=
              congrArg (fun name : QString × QString =>
                Process.createIdentifier (name.1 ++ latin1 "_" ++ name.2)) hname
            have hchannel : signalOf y = signalOf (x, old x.2.sqlName) :=
              signalOf_eq_iff.2 ⟨htext, hidentifier⟩
            have hreceived := (hrecords.received_value hfolds y (.notify (signalOf y))).2
              ⟨rfl, List.mem_map_of_mem hy⟩
            refine ⟨w, mon, signalOf y, hw, hmon, hconnected, ?_, ?_, hreceived⟩
            · exact (hnotifies _).2 (.inr ⟨x, old, hvalue, hchannel⟩)
            · apply hsubscribed
              apply SqlMonitor.mem_of_notificationReceived (.inr ?_) hreceived
              exact MonitorSignal.noConfusion

end

/-- A monitor of a table, in upper case, and of one value. -/
theorem signals_iff_watchedTable :
    let _ : CaseFolding := .ascii
    let _ : HashFunction := ⟨fun _ => 0⟩
    let _ : SqlDriver := ⟨fun _ => [], fun _ => true⟩
    let x : TableType × ColumnType := (watchedTable, ⟨latin1 "c", ColumnProperties.notify⟩)
    let before : List FeedEvent :=
      [.program (.newMonitor 0 (latin1 "db")), .program (.setMonitorTables 0 [latin1 "T"]),
        .addValueMonitor 0 x (.string (latin1 "v"))]
    let es := before ++ FeedEvent.updateSchema .noFailure :: [.updateSchema .noFailure]
    let change : Change := ⟨.update, latin1 "t", [fun _ => .string (latin1 "v")]⟩
    ∃ w, (Runs.run (ChangeFeed.step countedUuid [watchedTable]) .start es).program = .ok w ∧
      ((Runs.run (ChangeFeed.step countedUuid [watchedTable]) .start es).Signals change 0
          (.notify (latin1 "v_0")) ↔
        ∃ watch, Runs.run Watches.step (fun _ => none) es 0 = some watch ∧
          (w.session watch.connectionName).connected = true ∧
          watch.Hears [watchedTable] change (.notify (latin1 "v_0"))) := by
  intro _ _ _ x before es change
  have hone : ∀ y ∈ columnsOf [watchedTable], y = x := fun y hy => List.mem_singleton.1 hy
  have hdiffer : ∀ y ∈ columnsOf [watchedTable], ∀ z ∈ notifyColumns [watchedTable],
      columnIdentifier y = columnIdentifier z → columnName y = columnName z := by
    intro y hy z hz _
    obtain rfl := hone y hy
    obtain rfl : z = x := List.mem_singleton.1 hz
    rfl
  have htext : (MonitoredValue.string (latin1 "v")).TextOnly := by
    refine ⟨by decide, ?_⟩
    rw [QString.placeMarkers_of_not_mem (by decide)]
    exact fun n hn => absurd hn List.not_mem_nil
  have hes : Runs.Along (ChangeFeed.step countedUuid [watchedTable])
      (ChangeFeed.Admits [watchedTable]) .start es := by
    refine ⟨⟨fun _ _ _ _ => Process.Event.noConfusion, fun _ _ => trivial⟩, ?_⟩
    refine ⟨⟨fun _ _ _ _ => Process.Event.noConfusion, fun _ _ => trivial⟩, ?_⟩
    exact ⟨⟨List.mem_singleton_self _, htext⟩, trivial, trivial, trivial⟩
  have hok : createRulesPermissionsAndTriggers countedUuid [watchedTable]
      (Runs.run (ChangeFeed.step countedUuid [watchedTable]) .start before).schema .noFailure
        = .ok _ := rfl
  have hnew : Set.InjOn countedUuid (Set.Iio (Runs.run (ChangeFeed.step countedUuid [watchedTable])
      .start es).schema.uuids) := by
    intro i hi j hj h
    have hi : i < 2 := hi
    have hj : j < 2 := hj
    have hbits : i % 2 ^ 128 = j % 2 ^ 128 := congrArg (fun u : QUuid => u.bits.toNat) h
    omega
  have hw : ∃ w, (Runs.run (ChangeFeed.step countedUuid [watchedTable]) .start es).program = .ok w :=
    ⟨_, rfl⟩
  obtain ⟨w, hw⟩ := hw
  exact ⟨w, hw, signals_iff foldsNames_ascii plainNames_watchedTable hdiffer hes hok hnew hw change 0 _⟩

end Sqlate
